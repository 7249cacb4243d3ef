import SchemaNotation.Text.Integer
import SchemaNotation.Text.Word

/-!
# Column types

A column type is a base name with an optional length and array mark, as in
`string(255)[]`, or a union of literals, as in `'open' | 'closed'`.  A single
literal is a union of one value.
-/

namespace SchemaNotation

/-- A value of a literal union. -/
inductive Literal where
  | number (value : Int)
  | string (value : Text)
  deriving BEq, DecidableEq, Repr

/-- The type of a column. -/
inductive ColumnType where
  | simple (base : Text) (length : Option Int) (isArray : Bool)
  | union (values : List Literal)
  deriving BEq, DecidableEq, Repr

namespace Literal

/-- The written form of a literal: strings stand between apostrophes. -/
def render : Literal → Text
  | .number value => Integer.render value
  | .string value => apostrophe :: value ++ [apostrophe]

/-- A literal as it stands in the text, before its number is converted. -/
inductive Source where
  | number (negative : Bool) (digits : Text)
  | string (value : Text)
  deriving BEq, DecidableEq, Repr

/-- Read an optionally negative run of digits. -/
def Source.readNumber? : Text → Option (Source × Text)
  | '-' :: text => (Text.digits? text).map fun (digits, rest) => (.number true digits, rest)
  | text => (Text.digits? text).map fun (digits, rest) => (.number false digits, rest)

/-- Read one literal at the start of a text. -/
def Source.read? : Text → Option (Source × Text)
  | [] => none
  | c :: text =>
      if c = apostrophe then
        match text.dropWhile (· != apostrophe) with
        | [] => none
        | _ :: rest => some (.string (text.takeWhile (· != apostrophe)), rest)
      else readNumber? (c :: text)

/-- The value of a literal, unless its number has too many digits. -/
def Source.value : Source → Except Integer.TooLong Literal
  | .string value => .ok (.string value)
  | .number negative digits => do
      let magnitude ← Integer.ofDigits digits
      return .number (if negative then -(magnitude : Int) else magnitude)

theorem Source.length_of_readNumber? {text rest : Text} {literal : Source}
    (found : readNumber? text = some (literal, rest)) : rest.length < text.length := by
  have shorter : ∀ {text digits rest : Text},
      Text.digits? text = some (digits, rest) → rest.length < text.length := by
    intro text digits rest found
    unfold Text.digits? at found
    split at found
    · simp at found
    · next nonempty =>
        simp only [Option.some.injEq, Prod.mk.injEq] at found
        have parts := congrArg List.length (List.takeWhile_append_dropWhile (p := isDigit) (l := text))
        rw [List.length_append, found.1, found.2] at parts
        have := List.length_pos_iff.mpr (found.1 ▸ nonempty)
        omega
  unfold readNumber? at found
  split at found
  all_goals
    simp only [Option.map_eq_some_iff, Prod.mk.injEq] at found
    obtain ⟨⟨digits, tail⟩, found, _, rfl⟩ := found
    have := shorter found
    simp only [List.length_cons]
    omega

theorem Source.length_of_read? {text rest : Text} {literal : Source}
    (found : read? text = some (literal, rest)) : rest.length < text.length := by
  cases text with
  | nil => simp [read?] at found
  | cons c text =>
      simp only [read?] at found
      split at found
      · split at found
        · simp at found
        · next closing tail dropped =>
            simp only [Option.some.injEq, Prod.mk.injEq] at found
            have shorter := (List.dropWhile_sublist (p := (· != apostrophe)) (l := text)).length_le
            rw [dropped, List.length_cons] at shorter
            simp only [← found.2, List.length_cons]
            omega
      · exact length_of_readNumber? found

end Literal

namespace ColumnType

/-- The written form of a type. -/
def render : ColumnType → Text
  | .union values => List.intercalate " | ".toList (values.map Literal.render)
  | .simple base length isArray =>
      base ++ (length.elim [] fun value => '(' :: Integer.render value ++ [')']) ++
        (if isArray then "[]".toList else [])

/-- What follows a bar with blanks around it, together with the fact that it is no longer
than the text. -/
def afterBar? (text : Text) : Option { rest : Text // rest.length ≤ text.length } :=
  match separated : Text.trimLeft text with
  | '|' :: more =>
      have first := Text.length_trimLeft_le text
      have second := Text.length_trimLeft_le more
      some ⟨Text.trimLeft more, by rw [separated, List.length_cons] at first; omega⟩
  | _ => none

/-- Read literals separated by bars up to the end of the text. -/
def readLiterals? (text : Text) : Option (List Literal.Source) :=
  match found : Literal.Source.read? text with
  | none => none
  | some (literal, []) => some [literal]
  | some (literal, rest) =>
      match afterBar? rest with
      | none => none
      | some more =>
          have _shorter : more.val.length < text.length :=
            Nat.lt_of_le_of_lt more.property (Literal.Source.length_of_read? found)
          (readLiterals? more).map (literal :: ·)
termination_by text.length
decreasing_by exact _shorter

/-- Read an optional length in parentheses, as its digits. -/
def readLength? : Text → Option (Option Text × Text)
  | '(' :: text =>
      match Text.digits? text with
      | some (digits, ')' :: rest) => some (some digits, rest)
      | _ => none
  | text => some (none, text)

/-- Read an optional array mark that ends the text. -/
def readArrayMark? (text : Text) : Option Bool :=
  if text = [] then some false else if text = "[]".toList then some true else none

/-- The parts of a simple type: base, digits of the length, array mark. -/
def readSimple? (text : Text) : Option (Text × Option Text × Bool) := do
  let (base, rest) ← Text.word? text
  let (length, rest) ← readLength? rest
  let isArray ← readArrayMark? rest
  return (base, length, isArray)

/-- Read a type.  A text that is a sequence of literals is a union, also when it
could be read as a base name.  The answer is `none` for a text that is no type, and
an error for a number with too many digits. -/
def read (text : Text) : Except Integer.TooLong (Option ColumnType) :=
  let text := Text.trim text
  match readLiterals? text with
  | some literals => do
      let values ← literals.mapM Literal.Source.value
      return some (.union values)
  | none =>
      match readSimple? text with
      | none => .ok none
      | some (base, none, isArray) => .ok (some (.simple base none isArray))
      | some (base, some digits, isArray) => do
          let length ← Integer.ofDigits digits
          return some (.simple base (some length) isArray)

end ColumnType

end SchemaNotation
