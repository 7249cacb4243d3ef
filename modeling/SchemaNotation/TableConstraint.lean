import SchemaNotation.Identifier
import SchemaNotation.Text.Scan

/-!
# Table constraints

A comment line such as `UNIQUE(a, b)` or `INDEX(a, b)` states a constraint over
several columns.
-/

namespace SchemaNotation

/-- The kinds of table constraint. -/
inductive TableConstraint.Kind where
  | unique
  | index
  deriving BEq, DecidableEq, Repr

/-- A constraint over several columns of a table. -/
structure TableConstraint where
  kind : TableConstraint.Kind
  columns : List Text := []
  deriving BEq, DecidableEq, Repr

namespace TableConstraint

/-- The keyword of a kind. -/
def Kind.keyword : Kind → Text
  | .unique => "UNIQUE".toList
  | .index => "INDEX".toList

/-- A word that matches a keyword in any case and still names no kind. -/
structure UnknownKind where
  word : Text
  deriving BEq, DecidableEq, Repr

/-- The written form of a table constraint. -/
def render (constraint : TableConstraint) : Text :=
  constraint.kind.keyword ++
    '(' :: List.intercalate ", ".toList (constraint.columns.map Identifier.render) ++ [')']

/-- Read the column list inside the parentheses.  A name between backticks loses
them, and empty names are dropped. -/
def readColumns (text : Text) : List Text :=
  ((Text.splitOn ',' text).map fun piece =>
    let name := Text.trim piece
    if 2 ≤ name.length ∧ name.head? = some backtick ∧ name.getLast? = some backtick then
      Identifier.collapse (name.drop 1).dropLast
    else name).filter fun name => !name.isEmpty

/-- Read the text after a keyword: a column list in parentheses that ends the text. -/
def readList? (text : Text) : Option (List Text) := do
  let rest ← Text.after? "(".toList (Text.trimLeft text)
  match ← Text.upTo? ')' rest with
  | (columns, []) => return readColumns columns
  | _ => none

/-- Read a constraint of the given kind, as the word that matched its keyword and the
columns. -/
def readKind? (kind : Kind) (text : Text) : Option (Text × TableConstraint) := do
  let rest ← Text.afterKeyword? kind.keyword text
  let columns ← readList? rest
  return (text.take kind.keyword.length, { kind, columns })

/-- Read a comment text as a table constraint.  The answer is `none` for any other
text.  The dotted capital I matches the letter of the keywords but has no undotted
capital form, so a word with it is refused. -/
def read (text : Text) : Except UnknownKind (Option TableConstraint) :=
  let text := Text.trim text
  let found := match readKind? .unique text with
    | some found => some found
    | none => readKind? .index text
  match found with
  | none => .ok none
  | some (word, constraint) =>
      if word.contains dottedCapitalI then .error ⟨word⟩ else .ok (some constraint)

end TableConstraint

end SchemaNotation
