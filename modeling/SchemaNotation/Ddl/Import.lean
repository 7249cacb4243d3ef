import SchemaNotation.DeclaredType
import SchemaNotation.Ddl.Statement
import SchemaNotation.Schema
import SchemaNotation.TypeMap

/-!
# Schemas from statements

The statements of a script are applied one after the other.  A table is known by its bare
name: a later definition replaces an earlier one in place, and an index looks its table
up by that name.  What cannot be applied is left out with a warning.
-/

namespace SchemaNotation

/-- Replace the entry with the same key, or add the entry at the end. -/
def putByKey {α : Type} (key : α → Text) (entry : α) : List α → List α
  | [] => [entry]
  | other :: entries =>
      if key other = key entry then entry :: entries else other :: putByKey key entry entries

/-- Change the first entry with the given key. -/
def modifyByKey {α : Type} (key : α → Text) (name : Text) (change : α → α) : List α → List α
  | [] => []
  | entry :: entries =>
      if key entry = name then change entry :: entries
      else entry :: modifyByKey key name change entries

/-- Add a constraint, unless the column already has it. -/
def Column.addConstraint (column : Column) (constraint : Constraint) : Column :=
  if column.constraints.contains constraint then column
  else { column with constraints := column.constraints ++ [constraint] }

/-- Add a column to the primary key, which excludes null. -/
def Column.joinPrimaryKey (column : Column) : Column :=
  { column.addConstraint .primaryKey with nullable := false }

namespace Ddl

/-- Something in a script that was left out. -/
inductive Warning where
  | unresolvedForeignKey (table : Text)
  | unknownColumn (table column : Text)
  | missingColumnList
  | unknownTable
  deriving BEq, DecidableEq, Repr

/-- The text of a warning. -/
def Warning.message : Warning → Text
  | .unresolvedForeignKey table =>
      "Skipping composite or unresolved foreign key on ".toList ++ table
  | .unknownColumn table column =>
      "Constraint on ".toList ++ table ++ " references unknown column ".toList ++ column
  | .missingColumnList => "Skipping CREATE TABLE without column list".toList
  | .unknownTable => "Skipping index on unknown table".toList

/-- Why a script cannot be imported. -/
inductive ImportError where
  | unterminatedText
  | missingDefault
  | missingClause
  deriving BEq, DecidableEq, Repr

/-- The names that are not empty. -/
def realNames (names : List Text) : List Text :=
  names.filter fun name => !name.isEmpty

/-- The schema a name is qualified by, unless it is empty. -/
def ObjectName.qualifier? (name : ObjectName) : Option Text :=
  name.schema.filter fun schema => !schema.isEmpty

/-- The foreign key of a reference that lists exactly one column. -/
def Reference.foreignKey? (reference : Reference) : Option ForeignKey :=
  match realNames reference.columns with
  | [column] =>
      some { table := reference.table.name, column, schema := reference.table.qualifier? }
  | _ => none

/-- Apply a clause to its column.  Later clauses overrule earlier ones on null. -/
def ColumnClause.apply (column : Column) : ColumnClause → Except ImportError Column
  | .primaryKey => .ok column.joinPrimaryKey
  | .notNull => .ok { column with nullable := false }
  | .nullable => .ok { column with nullable := true }
  | .unique => .ok (column.addConstraint .unique)
  | .autoIncrement => .ok (column.addConstraint .autoIncrement)
  | .defaultValue (some value) => .ok (column.addConstraint (.defaultValue value))
  | .defaultValue none => .error .missingDefault
  | .references target =>
      match target.foreignKey? with
      | some target => .ok (column.addConstraint (.foreignKey target))
      | none => .ok column
  | .nameOnly => .error .missingClause
  | .other => .ok column

/-- The types whose columns are numbered automatically. -/
def serialTypes : List Text :=
  ["serial", "smallserial", "bigserial"].map String.toList

/-- A column of the declared type, before its clauses. -/
def columnOfType (dialect : Dialect) (name type : Text) : Column :=
  let declared := DeclaredType.read type
  let mapped := dialect.mapType declared.name declared.length declared.scale
  { name
    type := .simple mapped.base.name mapped.length mapped.isArray
    nullable := true
    constraints :=
      if serialTypes.contains (Text.lower declared.name) then [.autoIncrement] else []
    annotations :=
      (mapped.format.map fun format => { name := "format".toList, value := format }).toList }

/-- A column with its clauses applied in order. -/
def readColumn (dialect : Dialect) (name type : Text) (clauses : List ColumnClause) :
    Except ImportError Column :=
  clauses.foldlM ColumnClause.apply (columnOfType dialect name type)

/-- Change a column of a table, or warn that there is none of that name. -/
def changeColumn (name : Text) (change : Column → Column) (table : Table) :
    Table × List Warning :=
  if (table.column? name).isSome then
    ({ table with columns := modifyByKey Column.name name change table.columns }, [])
  else (table, [.unknownColumn table.name name])

/-- Change several columns of a table, one after the other. -/
def changeColumns (change : Column → Column) (table : Table) :
    List Text → Table × List Warning
  | [] => (table, [])
  | name :: names =>
      let (table, first) := changeColumn name change table
      let (table, rest) := changeColumns change table names
      (table, first ++ rest)

/-- State a constraint over the listed columns: on the column itself if it is a single
one, on the table if there are several. -/
def constrain (kind : TableConstraint.Kind) (constraint : Constraint) (columns : List Text)
    (table : Table) : Table × List Warning :=
  match realNames columns with
  | [] => (table, [])
  | [column] => changeColumn column (·.addConstraint constraint) table
  | columns => ({ table with constraints := table.constraints ++ [{ kind, columns }] }, [])

/-- Apply an element of a definition to the table.  Only the columns before it are
known to it. -/
def TableElement.apply (dialect : Dialect) (table : Table) :
    TableElement → Except ImportError (Table × List Warning)
  | .column name type clauses => do
      let definition ← readColumn dialect name type clauses
      return ({ table with columns := putByKey Column.name definition table.columns }, [])
  | .primaryKey columns => .ok (changeColumns Column.joinPrimaryKey table (realNames columns))
  | .foreignKey columns target =>
      match realNames columns, target.bind Reference.foreignKey? with
      | [name], some target =>
          .ok (changeColumn name (·.addConstraint (.foreignKey target)) table)
      | _, _ => .ok (table, [.unresolvedForeignKey table.name])
  | .unique columns => .ok (constrain .unique .unique columns table)
  | .other => .ok (table, [])

/-- Apply the elements of a definition in order. -/
def applyElements (dialect : Dialect) (table : Table) :
    List TableElement → Except ImportError (Table × List Warning)
  | [] => .ok (table, [])
  | element :: elements => do
      let (table, first) ← element.apply dialect table
      let (table, rest) ← applyElements dialect table elements
      return (table, first ++ rest)

/-- A table without columns.  Its schema is stated in an annotation and a comment line. -/
def emptyTable (name : ObjectName) : Table :=
  match name.qualifier? with
  | none => { name := name.name }
  | some schema =>
      let tag : Tag := { name := "schema".toList, value := schema }
      { name := name.name, annotations := [tag], metadata := [tag.render] }

/-- Apply a statement to the tables so far. -/
def Statement.apply (dialect : Dialect) (tables : List Table) :
    Statement → Except ImportError (List Table × List Warning)
  | .createTable _ none => .ok (tables, [.missingColumnList])
  | .createTable name (some elements) => do
      let (table, warnings) ← applyElements dialect (emptyTable name) elements
      return (putByKey Table.name table tables, warnings)
  | .createIndex target columns =>
      match tables.find? (·.name == target.name) with
      | none => .ok (tables, [.unknownTable])
      | some table =>
          let (table, warnings) := constrain .index .index columns table
          .ok (putByKey Table.name table tables, warnings)
  | .other => .ok (tables, [])

/-- Apply statements in order to the tables so far. -/
def applyStatements (dialect : Dialect) (tables : List Table) :
    List Statement → Except ImportError (List Table × List Warning)
  | [] => .ok (tables, [])
  | statement :: statements => do
      let (tables, first) ← statement.apply dialect tables
      let (tables, rest) ← applyStatements dialect tables statements
      return (tables, first ++ rest)

/-- The schema that a script defines, with warnings about what was left out. -/
def importStatements (dialect : Dialect) (statements : List Statement) :
    Except ImportError (Schema × List Warning) := do
  let (tables, warnings) ← applyStatements dialect [] statements
  return ({ tables }, warnings)

end Ddl

end SchemaNotation
