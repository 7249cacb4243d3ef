import SchemaNotation.ColumnType
import SchemaNotation.Constraint
import SchemaNotation.TableConstraint
import SchemaNotation.Tag

/-!
# Schemas

A schema is a list of tables with free comment lines, a table a list of columns with
the comment lines that belong to it.
-/

namespace SchemaNotation

/-- A column of a table.  The comment is the text behind its definition. -/
structure Column where
  name : Text
  type : ColumnType
  nullable : Bool := false
  constraints : List Constraint := []
  annotations : List Tag := []
  comment : Option Text := none
  deriving BEq, DecidableEq, Repr

/-- A table.  The metadata are the comment lines right above it, the remarks the
comment lines inside it that state no table constraint. -/
structure Table where
  name : Text
  columns : List Column := []
  constraints : List TableConstraint := []
  annotations : List Tag := []
  metadata : List Text := []
  remarks : List Text := []
  deriving BEq, DecidableEq, Repr

/-- A schema.  The metadata are the comment lines that belong to no table. -/
structure Schema where
  tables : List Table := []
  metadata : List Text := []
  annotations : List Tag := []
  deriving BEq, DecidableEq, Inhabited, Repr

namespace Column

/-- Whether the column has a constraint of the named kind. -/
def hasConstraint (column : Column) (kind : Text) : Bool :=
  column.constraints.any (·.kindName == kind)

/-- Whether the column is in the primary key. -/
def isPrimaryKey (column : Column) : Bool :=
  column.constraints.contains .primaryKey

end Column

namespace Table

/-- The first column of the given name. -/
def column? (table : Table) (name : Text) : Option Column :=
  table.columns.find? (·.name == name)

/-- The value of the first annotation named schema. -/
def schemaName? (table : Table) : Option Text :=
  (table.annotations.find? (·.name == "schema".toList)).map Tag.value

end Table

/-- The first table of the given name. -/
def Schema.table? (schema : Schema) (name : Text) : Option Table :=
  schema.tables.find? (·.name == name)

end SchemaNotation
