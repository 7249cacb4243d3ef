import SchemaNotation.Text.Basic

/-!
# Statements that define tables

The statements of a script, as far as they define tables and indexes.  Every other
statement, and every clause that says nothing about a schema, is kept as `other`.
-/

namespace SchemaNotation.Ddl

/-- The name of a table, with the schema it is qualified by. -/
structure ObjectName where
  schema : Option Text := none
  name : Text
  deriving BEq, DecidableEq, Repr

/-- The target of a reference: a table and the listed columns. -/
structure Reference where
  table : ObjectName
  columns : List Text := []
  deriving BEq, DecidableEq, Repr

/-- A clause of a column definition.  A default may lack its value, and a name may lack
the clause that it names. -/
inductive ColumnClause where
  | primaryKey
  | notNull
  | nullable
  | unique
  | autoIncrement
  | defaultValue (value : Option Text)
  | references (target : Reference)
  | nameOnly
  | other
  deriving BEq, DecidableEq, Repr

/-- An element of a table definition. -/
inductive TableElement where
  | column (name type : Text) (clauses : List ColumnClause)
  | primaryKey (columns : List Text)
  | foreignKey (columns : List Text) (target : Option Reference)
  | unique (columns : List Text)
  | other
  deriving BEq, DecidableEq, Repr

/-- A statement.  A table may be created without a list of elements. -/
inductive Statement where
  | createTable (name : ObjectName) (elements : Option (List TableElement))
  | createIndex (table : ObjectName) (columns : List Text)
  | other
  deriving BEq, DecidableEq, Repr

end SchemaNotation.Ddl
