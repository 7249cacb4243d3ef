import SchemaNotation.Comment
import SchemaNotation.Constraint.Reader
import SchemaNotation.ReadError
import SchemaNotation.ReadOptions
import SchemaNotation.Schema

/-!
# Column lines

A column line is a name, a question mark if the column is nullable, a colon, a type
and an optional semicolon.  The comment behind it states constraints and annotations.
-/

namespace SchemaNotation.Column

/-- Drop one semicolon at the end, and the blanks before it. -/
def dropSemicolon (definition : Text) : Text :=
  match Text.before? ";".toList definition with
  | some rest => Text.trimRight rest
  | none => definition

/-- The definition and the comment of a trimmed line.  An empty comment counts as
none. -/
def parts (line : Text) : Text × Option Text :=
  match Comment.split line with
  | (definition, none) => (dropSemicolon definition, none)
  | (definition, some comment) =>
      let comment := Text.trim comment
      (dropSemicolon (Text.trim definition), if comment.isEmpty then none else some comment)

/-- The name, the nullability and the type text of a definition. -/
def readDefinition (line definition : Text) : Except Defect (Text × Bool × Text) :=
  match Identifier.read? definition with
  | none => .error (.invalidColumnName line)
  | some (name, rest) =>
      let (nullable, rest) := match rest with
        | '?' :: rest => (true, rest)
        | rest => (false, rest)
      match Text.trimLeft rest with
      | ':' :: type => .ok (name, nullable, Text.trim type)
      | _ => .error (.missingColon line)

/-- Read the line of the given number as a column. -/
def read (options : ReadOptions) (number : Int) (source : Text) : Except ReadError Column := do
  let line := Text.trim source
  let (definition, comment) := parts line
  let malformed (defect : Defect) : ReadError := .malformed { line := number, defect, source }
  let (name, nullable, typeText) ← (readDefinition line definition).mapError malformed
  match ← (ColumnType.read typeText).mapError .tooLong with
  | none => throw (malformed (.invalidType typeText line))
  | some type =>
      let stated := comment.getD []
      return {
        name, type, nullable, comment
        constraints := if options.skipConstraints then [] else Constraint.readAll stated
        annotations := if options.skipAnnotations then [] else Tag.readAll stated
      }

end SchemaNotation.Column
