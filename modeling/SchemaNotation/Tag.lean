import SchemaNotation.Text.Scan

/-!
# Annotations

Comment text carries annotations such as `@schema: sales`.  Each is a tag with a name
and a value.  A value runs to the next comma that an at sign follows, blanks apart,
or to the end of the text.
-/

namespace SchemaNotation

/-- An annotation: a name with a value. -/
structure Tag where
  name : Text
  value : Text
  deriving BEq, DecidableEq, Repr

namespace Tag

/-- The written form of an annotation. -/
def render (tag : Tag) : Text :=
  '@' :: tag.name ++ ": ".toList ++ tag.value

/-- A value ends before trailing blanks, and before a comma that leads to the next at
sign. -/
def endsValue (text : Text) : Bool :=
  Text.isAllBlank text ||
    match text with
    | ',' :: rest => (Text.trimLeft rest).head? == some '@'
    | _ => false

/-- Read an annotation that starts right here.  Returns it with what follows its
value. -/
def readHere? : Text → Option (Tag × Text)
  | '@' :: text =>
      match Text.word? text with
      | some (name, ':' :: rest) =>
          (Text.afterBlanks (Text.shortestUntil endsValue) rest).map fun (value, rest) =>
            ({ name, value := Text.trim value }, rest)
      | _ => none
  | _ => none

theorem length_of_readHere? {text rest : Text} {tag : Tag}
    (found : readHere? text = some (tag, rest)) : rest.length < text.length := by
  unfold readHere? at found
  split at found
  · next text =>
      split at found
      · next name tail equal =>
          simp only [Option.map_eq_some_iff, Prod.mk.injEq] at found
          obtain ⟨⟨value, rest⟩, found, _, rfl⟩ := found
          have shorter := Text.length_of_afterBlanks Text.length_of_shortestUntil found
          have dropped : (':' :: tail).length ≤ text.length := by
            unfold Text.word? at equal
            split at equal
            · simp at equal
            · simp only [Option.some.injEq, Prod.mk.injEq] at equal
              exact equal.2 ▸ (List.dropWhile_sublist isWord).length_le
          simp only [List.length_cons] at dropped ⊢
          omega
      · simp at found
  · simp at found

/-- The annotations in a text, from left to right. -/
def readAll : Text → List Tag
  | [] => []
  | c :: text =>
      match found : readHere? (c :: text) with
      | some (tag, rest) =>
          have _shorter : rest.length < (c :: text).length := length_of_readHere? found
          tag :: readAll rest
      | none => readAll text
termination_by text => text.length
decreasing_by
  · exact _shorter
  · exact Nat.lt_succ_self text.length

/-- The annotations in a block of comment lines, in order. -/
def readLines (lines : List Text) : List Tag :=
  lines.flatMap readAll

end Tag

end SchemaNotation
