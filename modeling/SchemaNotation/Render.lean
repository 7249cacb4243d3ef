import SchemaNotation.Comment
import SchemaNotation.Layout
import SchemaNotation.Schema
import SchemaNotation.Text.Letter

/-!
# Writing a schema

A column is written with its own comment; a column without one gets a comment that
states its constraints and annotations.  Comment lines above a table go out as they
are, and what they do not already state is written as further comment lines.
-/

namespace SchemaNotation

namespace Column

/-- The names of columns that are written last. -/
def timestampNames : List Text :=
  ["created_at", "deleted_at", "updated_at"].map String.toList

/-- Primary key columns come first and timestamps last. -/
def rank (column : Column) : Nat :=
  if column.isPrimaryKey then 0
  else if timestampNames.contains (Text.lower column.name) then 2
  else 1

/-- Sort columns by rank.  Columns of one rank keep their order. -/
def sortByRank (columns : List Column) : List Column :=
  columns.mergeSort fun first second => first.rank ≤ second.rank

/-- The comment that states a column's constraints, in the order of their kinds, and
its annotations. -/
def statedComment? (column : Column) : Option Text :=
  let constraints := column.constraints.mergeSort fun first second => first.rank ≤ second.rank
  match constraints.map Constraint.describe ++ column.annotations.map Tag.render with
  | [] => none
  | facts => some (List.intercalate ", ".toList facts)

/-- The comment behind a column's definition: its own, or the one that states what is
known of the column. -/
def trailingComment? (column : Column) : Option Text :=
  match column.comment with
  | some (c :: comment) => some (c :: comment)
  | _ => column.statedComment?

/-- The name, the mark of a nullable column, and the colon. -/
def label (column : Column) : Text :=
  Identifier.render column.name ++ (if column.nullable then ['?'] else []) ++ [':']

/-- The definition of a column.  At least one space separates the label from the
type. -/
def definition (layout : Layout) (column : Column) : Text :=
  let width := if layout.alignTypes then
      max (layout.typeAlignment - layout.indent) (column.label.length + 1)
    else column.label.length + 1
  Text.padRight width column.label ++ column.type.render ++ [';']

/-- The line of a column without its indent. -/
def render (layout : Layout) (column : Column) : Text :=
  let definition := column.definition layout
  match column.trailingComment? with
  | none => definition
  | some comment =>
      let width := max (layout.commentAlignment - layout.indent) (definition.length + 1)
      Text.padRight width definition ++ "// ".toList ++ comment

end Column

namespace Table

/-- The annotations that no metadata line states. -/
def unstatedAnnotations (table : Table) : List Tag :=
  let stated := Tag.readLines table.metadata
  table.annotations.filter fun tag => !stated.contains tag

/-- The table constraints that no metadata line states. -/
def unstatedConstraints (table : Table) :
    Except TableConstraint.UnknownKind (List TableConstraint) := do
  let stated ← table.metadata.mapM TableConstraint.read
  return table.constraints.filter fun constraint => !stated.contains (some constraint)

/-- The columns in the order in which they are written. -/
def writtenColumns (layout : Layout) (table : Table) : List Column :=
  if layout.sortColumns then Column.sortByRank table.columns else table.columns

/-- The lines of a table. -/
def renderLines (layout : Layout) (table : Table) :
    Except TableConstraint.UnknownKind (List Text) := do
  let constraints ← table.unstatedConstraints
  let indent := List.replicate layout.indent ' '
  return table.unstatedAnnotations.map (fun tag => "// ".toList ++ tag.render) ++
    table.metadata.map Comment.line ++
    constraints.map (fun constraint => "// ".toList ++ constraint.render) ++
    ["interface ".toList ++ Identifier.render table.name ++ [' ', '\x7b']] ++
    table.remarks.map (fun remark => indent ++ Comment.line remark) ++
    (table.writtenColumns layout).map (fun column => indent ++ column.render layout) ++
    [['\x7d']]

/-- The text of a table.  It fails on a metadata line whose keyword names no kind of
constraint. -/
def render (layout : Layout) (table : Table) : Except TableConstraint.UnknownKind Text := do
  return List.intercalate ['\n'] (← table.renderLines layout)

end Table

/-- The text of a schema: its comment lines and its tables, with blank lines between
them. -/
def Schema.render (layout : Layout) (schema : Schema) :
    Except TableConstraint.UnknownKind Text := do
  let comments := if schema.metadata.isEmpty then []
    else [List.intercalate ['\n'] (schema.metadata.map Comment.line)]
  let tables ← schema.tables.mapM (Table.render layout)
  return List.intercalate ['\n', '\n'] (comments ++ tables) ++ ['\n']

end SchemaNotation
