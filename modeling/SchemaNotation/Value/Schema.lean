import SchemaNotation.Layout
import SchemaNotation.ReadOptions
import SchemaNotation.Schema
import SchemaNotation.Value

/-!
# Schemas given as value trees

The checks that turn a value tree into a schema, its parts, or a set of options.  Fields
are checked in a fixed order, a field that has a default may be missing, and unknown
fields are ignored.
-/

namespace SchemaNotation

open Value

/-- A union value is a text or an integer.  A value that is neither has both faults. -/
def Literal.ofValue : Value → Checked Literal
  | .text value => .ok (.string value)
  | value =>
      let integer := value.toInteger.below (.field "int".toList)
      let text := value.toText.below (.field "str".toList)
      match integer with
      | .ok integer => .ok (.number integer)
      | .error _ => (Checked.both integer text).map fun (integer, _) => .number integer

namespace ColumnType

/-- The fields of a simple type. -/
def simpleOfFields (fields : List (Text × Value)) : Checked ColumnType :=
  ((required fields "base" toText).both
    ((optional fields "length" none (toOption toInteger)).both
      (optional fields "is_array" false toFlag))).map
    fun (base, length, isArray) => .simple base length isArray

/-- The fields of a union. -/
def unionOfFields (fields : List (Text × Value)) : Checked ColumnType :=
  (optional fields "values" [] (toSequence Literal.ofValue)).map .union

/-- Check a value as a column type. -/
def ofValue : Value → Checked ColumnType :=
  toTagged fun tag =>
    if tag = "simple".toList then some simpleOfFields
    else if tag = "union".toList then some unionOfFields
    else none

end ColumnType

/-- The fields of a reference. -/
def ForeignKey.ofFields (fields : List (Text × Value)) : Checked ForeignKey :=
  ((required fields "reference_table" toText).both
    ((required fields "reference_column" toText).both
      ((optional fields "reference_schema" none (toOption toText)).both
        (optional fields "reference_action" none (toOption toText))))).map
    fun (table, column, schema, action) => { table, column, schema, action }

namespace Constraint

/-- The check for the constraints of the named kind. -/
def ofFields? (kind : Text) : Option (List (Text × Value) → Checked Constraint) :=
  match [Constraint.primaryKey, .unique, .index, .autoIncrement].find? (·.kindName == kind) with
  | some constraint => some fun _ => .ok constraint
  | none =>
      if kind = "FOREIGN_KEY".toList then
        some fun fields => (ForeignKey.ofFields fields).map .foreignKey
      else if kind = "DEFAULT".toList then
        some fun fields => (required fields "value" toText).map .defaultValue
      else if kind = "CHECK".toList then
        some fun fields => (required fields "expression" toText).map .checkIn
      else none

/-- Check a value as a column constraint. -/
def ofValue : Value → Checked Constraint :=
  toTagged ofFields?

end Constraint

namespace TableConstraint

/-- Check a value as the keyword of a kind. -/
def Kind.ofValue : Value → Checked Kind
  | .text word =>
      match [Kind.unique, .index].find? (·.keyword == word) with
      | some kind => .ok kind
      | none => Checked.fault .notLiteral
  | _ => Checked.fault .notLiteral

/-- Check a value as a table constraint. -/
def ofValue : Value → Checked TableConstraint :=
  toRecord fun fields =>
    ((required fields "kind" Kind.ofValue).both
      (optional fields "columns" [] (toSequence toText))).map
      fun (kind, columns) => { kind, columns }

/-- The fault of a constraint line whose keyword names no kind. -/
def UnknownKind.faults (_ : UnknownKind) : List Fault :=
  [{ path := [.field "kind".toList], kind := .notLiteral }]

end TableConstraint

/-- Check a value as an annotation. -/
def Tag.ofValue : Value → Checked Tag :=
  toRecord fun fields =>
    ((required fields "name" toText).both (required fields "value" toText)).map
      fun (name, value) => { name, value }

/-- Check a value as a column. -/
def Column.ofValue : Value → Checked Column :=
  toRecord fun fields =>
    ((required fields "name" toText).both
      ((required fields "type" ColumnType.ofValue).both
        ((optional fields "nullable" false toFlag).both
          ((optional fields "constraints" [] (toSequence Constraint.ofValue)).both
            ((optional fields "annotations" [] (toSequence Tag.ofValue)).both
              (optional fields "comment" none (toOption toText))))))).map
      fun (name, type, nullable, constraints, annotations, comment) =>
        { name, type, nullable, constraints, annotations, comment }

/-- Check a value as a table. -/
def Table.ofValue : Value → Checked Table :=
  toRecord fun fields =>
    ((required fields "name" toText).both
      ((optional fields "columns" [] (toSequence Column.ofValue)).both
        ((optional fields "table_constraints" [] (toSequence TableConstraint.ofValue)).both
          ((optional fields "annotations" [] (toSequence Tag.ofValue)).both
            ((optional fields "metadata" [] (toSequence toText)).both
              (optional fields "constraint_comments" [] (toSequence toText))))))).map
      fun (name, columns, constraints, annotations, metadata, remarks) =>
        { name, columns, constraints, annotations, metadata, remarks }

/-- Check a value as a schema. -/
def Schema.ofValue : Value → Checked Schema :=
  toRecord fun fields =>
    ((optional fields "tables" [] (toSequence Table.ofValue)).both
      ((optional fields "metadata" [] (toSequence toText)).both
        (optional fields "annotations" [] (toSequence Tag.ofValue)))).map
      fun (tables, metadata, annotations) => { tables, metadata, annotations }

/-- Check a value as options for reading. -/
def ReadOptions.ofValue : Value → Checked ReadOptions :=
  toRecord fun fields =>
    ((optional fields "skip_constraints" false toFlag).both
      (optional fields "skip_annotations" false toFlag)).map
      fun (skipConstraints, skipAnnotations) => { skipConstraints, skipAnnotations }

namespace Layout

/-- Check a value as a width. -/
def widthOfValue (value : Value) : Checked Nat :=
  value.toInteger.bind checkWidth

/-- Check a value as a layout. -/
def ofValue : Value → Checked Layout :=
  toRecord fun fields =>
    let standard : Layout := {}
    ((optional fields "indent" standard.indent widthOfValue).both
      ((optional fields "type_alignment" standard.typeAlignment widthOfValue).both
        ((optional fields "comment_alignment" standard.commentAlignment widthOfValue).both
          ((optional fields "sort_columns" standard.sortColumns toFlag).both
            (optional fields "align_types" standard.alignTypes toFlag))))).map
      fun (indent, typeAlignment, commentAlignment, sortColumns, alignTypes) =>
        { indent, typeAlignment, commentAlignment, sortColumns, alignTypes }

end Layout

end SchemaNotation
