import SchemaNotation.ColumnType
import SchemaNotation.Proofs.Integer
import SchemaNotation.Proofs.Outcome
import SchemaNotation.Proofs.Scan

/-!
# Written literals read back

A literal that was read has a value that its written form can hold, and a literal is read
back from that form.  A union is a row of literals with bars and blanks between them, and
such rows are exactly the texts that are read as several literals.
-/

namespace SchemaNotation

namespace Literal

/-- A literal that its written form can hold. -/
def Valid : Literal → Prop
  | .number value => Integer.InLimit value.natAbs
  | .string value => apostrophe ∉ value

/-- The text of a string literal. -/
def string? : Literal → Option Text
  | .number _ => none
  | .string value => some value

/-- The literal as it stands in its written form. -/
def source : Literal → Source
  | .number (.ofNat value) => .number false (Nat.toDigits 10 value)
  | .number (.negSucc value) => .number true (Nat.toDigits 10 (value + 1))
  | .string value => .string value

/-- A literal as it stands in a text: the text it was read from. -/
def Source.text : Source → Text
  | .number negative digits => (if negative then ['-'] else []) ++ digits
  | .string value => apostrophe :: value ++ [apostrophe]

/-- The parts of a literal are what the reader can find: digits, or no apostrophe. -/
def Source.WellFormed : Source → Prop
  | .number _ digits => digits ≠ [] ∧ ∀ c ∈ digits, isDigit c = true
  | .string value => apostrophe ∉ value

theorem text_source (literal : Literal) : literal.source.text = literal.render := by
  cases literal with
  | number value => cases value <;> rfl
  | string value => rfl

theorem wellFormed_source {literal : Literal} (valid : literal.Valid) :
    literal.source.WellFormed := by
  cases literal with
  | number value =>
      cases value with
      | ofNat value => exact ⟨Nat.toDigits_ne_nil, Integer.isDigit_toDigits⟩
      | negSucc value => exact ⟨Nat.toDigits_ne_nil, Integer.isDigit_toDigits⟩
  | string value => exact valid

theorem value_source {literal : Literal} (valid : literal.Valid) :
    literal.source.value = .ok literal := by
  cases literal with
  | number value =>
      cases value with
      | ofNat value =>
          have inLimit : Integer.InLimit value := valid
          simp only [source, Source.value, Integer.ofDigits_toDigits inLimit]
          rfl
      | negSucc value =>
          have inLimit : Integer.InLimit (value + 1) := valid
          simp only [source, Source.value, Integer.ofDigits_toDigits inLimit]
          rfl
  | string value => rfl

/-- The value of a literal.  A number has a limited number of digits. -/
inductive Source.Denotes : Source → Literal → Prop where
  | string (value : Text) : Denotes (.string value) (.string value)
  | number (negative : Bool) {digits : Text} : digits.length ≤ Integer.digitLimit →
      Denotes (.number negative digits) (.number
        (if negative then -(Text.digitsValue digits : Int) else Text.digitsValue digits))

theorem Source.value_eq_ok_iff {found : Source} {literal : Literal} :
    found.value = .ok literal ↔ found.Denotes literal := by
  constructor
  · intro value
    cases found with
    | string text =>
        cases value
        exact .string text
    | number negative digits =>
        obtain ⟨magnitude, converted, result⟩ := exists_of_bind_eq_ok value
        cases result
        obtain ⟨short, rfl⟩ := Integer.ofDigits_eq_ok_iff.mp converted
        exact .number negative short
  · intro denotes
    cases denotes with
    | string text => rfl
    | number negative short =>
        rw [value, Integer.ofDigits_eq_ok_iff.mpr ⟨short, rfl⟩]
        rfl

/-- The value of a literal that was read is valid. -/
theorem valid_of_value {found : Source} {literal : Literal} (wellFormed : found.WellFormed)
    (denotes : found.Denotes literal) : literal.Valid := by
  cases denotes with
  | string text => exact wellFormed
  | @number negative digits short =>
      have inLimit := Integer.inLimit_of_ofDigits (Integer.ofDigits_eq_ok_iff.mpr ⟨short, rfl⟩)
      cases negative with
      | false => simpa [Valid] using inLimit
      | true => simpa [Valid] using inLimit

theorem Source.readNumber?_append {digits rest : Text} (nonempty : digits ≠ [])
    (inside : ∀ c ∈ digits, isDigit c = true) (stops : Text.Stops isDigit rest) :
    Source.readNumber? (digits ++ rest) = some (.number false digits, rest) := by
  unfold Source.readNumber?
  split
  · next text equal =>
      cases digits with
      | nil => exact (nonempty rfl).elim
      | cons c digits =>
          rw [List.cons_append, List.cons.injEq] at equal
          have digit := inside c (by simp)
          rw [equal.1] at digit
          exact absurd digit (by decide)
  · rw [Integer.digits?_append nonempty inside stops]
    rfl

/-- A literal is read back in front of a text that does not continue its digits. -/
theorem Source.read?_text {found : Source} (wellFormed : found.WellFormed) {rest : Text}
    (stops : Text.Stops isDigit rest) : Source.read? (found.text ++ rest) = some (found, rest) := by
  cases found with
  | string value =>
      have inside : ∀ c ∈ value, (c != apostrophe) = true := by
        intro c member
        rw [bne_iff_ne]
        intro equal
        exact wellFormed (equal ▸ member)
      have closes : Text.Stops (· != apostrophe) (apostrophe :: rest) := by
        rw [Text.stops_cons]
        decide
      simp only [Source.text, List.cons_append, List.append_assoc, List.nil_append,
        Source.read?, if_pos]
      rw [Text.takeWhile_append_of_stops inside closes, Text.dropWhile_append_of_stops inside closes]
  | number negative digits =>
      obtain ⟨nonempty, inside⟩ := wellFormed
      cases negative with
      | true =>
          simp only [Source.text, if_true, List.cons_append, List.nil_append]
          rw [Source.read?, if_neg (by decide), Source.readNumber?,
            Integer.digits?_append nonempty inside stops]
          rfl
      | false =>
          simp only [Source.text, Bool.false_eq_true, if_false, List.nil_append]
          cases digits with
          | nil => exact (nonempty rfl).elim
          | cons c digits =>
              have other : c ≠ apostrophe := by
                intro equal
                have digit := inside c (by simp)
                rw [equal] at digit
                exact absurd digit (by decide)
              rw [List.cons_append, Source.read?, if_neg other, ← List.cons_append,
                Source.readNumber?_append nonempty inside stops]

/-- What a literal was read from. -/
theorem Source.eq_append_of_read? {text rest : Text} {found : Source}
    (read : Source.read? text = some (found, rest)) :
    text = found.text ++ rest ∧ found.WellFormed := by
  cases text with
  | nil => simp [Source.read?] at read
  | cons c text =>
      simp only [Source.read?] at read
      split at read
      · next isMark =>
          have parts := List.takeWhile_append_dropWhile (p := (· != apostrophe)) (l := text)
          split at read
          · cases read
          · next closing tail dropped =>
              have closes := Text.stops_dropWhile (· != apostrophe) text
              rw [dropped, Text.stops_cons, bne_eq_false_iff_eq] at closes
              simp only [Option.some.injEq, Prod.mk.injEq] at read
              obtain ⟨rfl, rfl⟩ := read
              rw [dropped, closes] at parts
              constructor
              · rw [Source.text, isMark, List.cons_append, List.cons_append, List.append_assoc,
                  List.singleton_append, parts]
              · intro member
                simpa using Text.mem_takeWhile member
      · unfold Source.readNumber? at read
        split at read
        · next digits equal =>
            simp only [Option.map_eq_some_iff, Prod.mk.injEq] at read
            obtain ⟨⟨run, tail⟩, read, rfl, rfl⟩ := read
            obtain ⟨parts, nonempty, inside, _⟩ := Integer.eq_append_of_digits? read
            refine ⟨?_, nonempty, inside⟩
            rw [equal, parts]
            rfl
        · simp only [Option.map_eq_some_iff, Prod.mk.injEq] at read
          obtain ⟨⟨run, tail⟩, read, rfl, rfl⟩ := read
          obtain ⟨parts, nonempty, inside, _⟩ := Integer.eq_append_of_digits? read
          exact ⟨parts, nonempty, inside⟩

theorem Source.text_ne_nil {literal : Source} (wellFormed : literal.WellFormed) :
    literal.text ≠ [] := by
  cases literal with
  | string value => simp [Source.text]
  | number negative digits => simp [Source.text, wellFormed.1]

/-- A literal starts with no blank. -/
theorem Source.stops_text {literal : Source} (wellFormed : literal.WellFormed) (rest : Text) :
    Text.Stops isBlank (literal.text ++ rest) := by
  cases literal with
  | string value =>
      rw [Source.text, List.cons_append, List.cons_append, Text.stops_cons]
      decide
  | number negative digits =>
      obtain ⟨nonempty, inside⟩ := wellFormed
      cases negative with
      | true =>
          simp only [Source.text, if_true, List.cons_append, List.nil_append]
          rw [Text.stops_cons]
          decide
      | false =>
          simp only [Source.text, Bool.false_eq_true, if_false, List.nil_append]
          cases digits with
          | nil => exact (nonempty rfl).elim
          | cons c digits =>
              rw [List.cons_append, Text.stops_cons]
              exact isBlank_of_isDigit (inside c (by simp))

end Literal

namespace ColumnType

open Literal

/-! ## Unions -/

theorem readLiterals?_eq (text : Text) :
    readLiterals? text =
      match Source.read? text with
      | none => none
      | some (literal, []) => some [literal]
      | some (literal, c :: rest) =>
          (afterBar? (c :: rest)).bind fun more => (readLiterals? more.val).map (literal :: ·) := by
  rw [readLiterals?]
  split
  · next equal => rw [equal]
  · next equal => rw [equal]
  · next literal rest nonempty equal =>
      cases rest with
      | nil => exact (nonempty rfl).elim
      | cons c rest =>
          simp only [equal]
          cases afterBar? (c :: rest) with
          | none => rfl
          | some more => rfl

theorem afterBar?_of_blanks {before after text : Text} (beforeBlank : Text.Blank before)
    (afterBlank : Text.Blank after) (stops : Text.Stops isBlank text) :
    (afterBar? (before ++ '|' :: (after ++ text))).map Subtype.val = some text := by
  have separated : Text.trimLeft (before ++ '|' :: (after ++ text)) = '|' :: (after ++ text) := by
    rw [Text.trimLeft_blank_append beforeBlank]
    exact Text.trimLeft_of_stops (Text.stops_cons.mpr (by decide))
  have trimmed : Text.trimLeft (after ++ text) = text := by
    rw [Text.trimLeft_blank_append afterBlank, Text.trimLeft_of_stops stops]
  unfold afterBar?
  split
  · next more equal =>
      rw [separated, List.cons.injEq] at equal
      change some (Text.trimLeft more) = some text
      rw [← equal.2, trimmed]
  · next noBar => exact (noBar _ separated).elim

theorem eq_of_afterBar? {text : Text} {more : { rest : Text // rest.length ≤ text.length }}
    (found : afterBar? text = some more) :
    ∃ before after, Text.Blank before ∧ Text.Blank after ∧
      text = before ++ '|' :: (after ++ more.val) := by
  unfold afterBar? at found
  split at found
  · next rest equal =>
      cases found
      obtain ⟨before, beforeBlank, parts⟩ := Text.trimLeft_split text
      obtain ⟨after, afterBlank, parts'⟩ := Text.trimLeft_split rest
      refine ⟨before, after, beforeBlank, afterBlank, ?_⟩
      rw [equal] at parts
      rw [← parts']
      exact parts
  · cases found

/-- Literals in a row, with bars and blanks between them. -/
inductive Row : Text → List Source → Prop where
  | last {literal : Source} : literal.WellFormed → Row literal.text [literal]
  | more {literal : Source} {before after text : Text} {literals : List Source} :
      literal.WellFormed → Text.Blank before → Text.Blank after → Row text literals →
      Row (literal.text ++ (before ++ '|' :: (after ++ text))) (literal :: literals)

theorem row_of_readLiterals? {text : Text} {literals : List Source}
    (read : readLiterals? text = some literals) : Row text literals := by
  rw [readLiterals?_eq] at read
  split at read
  · cases read
  · next literal equal =>
      cases read
      obtain ⟨parts, wellFormed⟩ := Source.eq_append_of_read? equal
      rw [parts, List.append_nil]
      exact .last wellFormed
  · next literal c rest equal =>
      simp only [Option.bind_eq_some_iff, Option.map_eq_some_iff] at read
      obtain ⟨more, found, literals, read, rfl⟩ := read
      obtain ⟨parts, wellFormed⟩ := Source.eq_append_of_read? equal
      obtain ⟨before, after, beforeBlank, afterBlank, separated⟩ := eq_of_afterBar? found
      have shorter := Source.length_of_read? equal
      have notLonger := more.property
      rw [parts, separated]
      exact .more wellFormed beforeBlank afterBlank (row_of_readLiterals? read)
termination_by text.length
decreasing_by omega

theorem Row.stops {text : Text} {literals : List Source} (row : Row text literals) :
    Text.Stops isBlank text := by
  cases row with
  | last wellFormed =>
      have stops := Source.stops_text wellFormed []
      rwa [List.append_nil] at stops
  | more wellFormed => exact Source.stops_text wellFormed _

theorem Row.ne_nil {text : Text} {literals : List Source} (row : Row text literals) :
    literals ≠ [] := by
  cases row <;> simp

theorem Row.wellFormed {text : Text} {literals : List Source} (row : Row text literals) :
    ∀ literal ∈ literals, literal.WellFormed := by
  induction row with
  | last wellFormed =>
      intro literal member
      rw [List.mem_singleton] at member
      exact member ▸ wellFormed
  | more wellFormed _ _ _ ih =>
      intro literal member
      rcases List.mem_cons.mp member with rfl | member
      · exact wellFormed
      · exact ih literal member

theorem Row.text_ne_nil {text : Text} {literals : List Source} (row : Row text literals) :
    text ≠ [] := by
  cases row with
  | last wellFormed => exact Source.text_ne_nil wellFormed
  | more wellFormed => simp [Source.text_ne_nil wellFormed]

/-- A row of literals ends with an apostrophe or a digit. -/
theorem Row.ends {text : Text} {literals : List Source} (row : Row text literals) {c : Char}
    (found : text.getLast? = some c) : c = apostrophe ∨ isDigit c = true := by
  induction row with
  | @last literal wellFormed =>
      cases literal with
      | string value =>
          rw [Source.text, List.getLast?_concat] at found
          exact Or.inl (Option.some.inj found).symm
      | number negative digits =>
          obtain ⟨nonempty, inside⟩ := wellFormed
          rw [Source.text, List.getLast?_append_of_ne_nil _ nonempty] at found
          exact Or.inr (inside c (List.mem_of_getLast? found))
  | @more literal before after text literals wellFormed beforeBlank afterBlank row ih =>
      apply ih
      have nonempty := row.text_ne_nil
      rwa [List.getLast?_append_of_ne_nil _ (by simp), List.getLast?_append_of_ne_nil _ (by simp),
        List.getLast?_cons_of_ne_nil (by simp [nonempty]),
        List.getLast?_append_of_ne_nil _ nonempty] at found

theorem Row.trimmed {text : Text} {literals : List Source} (row : Row text literals) :
    Text.Trimmed text := by
  refine ⟨row.stops, ?_⟩
  intro c found
  rcases row.ends found with rfl | digit
  · decide
  · exact isBlank_of_isDigit digit

/-- Each literal of a row stands in the row. -/
theorem Row.within {text : Text} {literals : List Source} (row : Row text literals)
    {literal : Source} (member : literal ∈ literals) : literal.text <:+: text := by
  induction row with
  | last _ =>
      cases List.mem_singleton.mp member
      exact List.infix_rfl
  | @more first before after text literals _ _ _ _ ih =>
      rcases List.mem_cons.mp member with rfl | member
      · exact (List.prefix_append _ _).isInfix
      · have behind : text <:+ first.text ++ (before ++ '|' :: (after ++ text)) :=
          ⟨first.text ++ before ++ '|' :: after, by simp⟩
        exact (ih member).trans behind.isInfix

/-- Literals in a row are read one after the other. -/
theorem readLiterals?_of_row {text : Text} {literals : List Source} (row : Row text literals) :
    readLiterals? text = some literals := by
  induction row with
  | @last literal wellFormed =>
      have read := Source.read?_text wellFormed (Text.stops_nil isDigit)
      rw [List.append_nil] at read
      rw [readLiterals?_eq, read]
  | @more literal before after text literals wellFormed beforeBlank afterBlank row ih =>
      have found := afterBar?_of_blanks beforeBlank afterBlank row.stops
      have stops : Text.Stops isDigit (before ++ '|' :: (after ++ text)) := by
        cases before with
        | nil => exact Text.stops_cons.mpr (by decide)
        | cons c before => exact Text.stops_cons.mpr (isDigit_of_isBlank (beforeBlank c (by simp)))
      have read := Source.read?_text wellFormed stops
      rw [readLiterals?_eq, read]
      cases separated : before ++ '|' :: (after ++ text) with
      | nil => simp at separated
      | cons c rest =>
          rw [separated, Option.map_eq_some_iff] at found
          obtain ⟨more, found, equal⟩ := found
          simp only [found, Option.bind_some, equal, ih, Option.map_some]

/-- The written form of a union is its literals in a row. -/
theorem row_render {values : List Literal} (nonempty : values ≠ [])
    (valid : ∀ value ∈ values, value.Valid) :
    Row (render (.union values)) (values.map Literal.source) := by
  induction values with
  | nil => exact (nonempty rfl).elim
  | cons value values ih =>
      have wellFormed := wellFormed_source (valid value (by simp))
      cases values with
      | nil =>
          rw [render, List.map_singleton, List.map_singleton, List.intercalate_singleton,
            ← text_source]
          exact .last wellFormed
      | cons next values =>
          have rest := ih (by simp) (fun other member => valid other (List.mem_cons_of_mem _ member))
          have oneBlank : Text.Blank [' '] := by simp [Text.Blank, isBlank]
          have row := Row.more wellFormed oneBlank oneBlank rest
          rw [text_source] at row
          simpa [render, List.intercalate_cons_cons] using row

theorem values_of_sources {values : List Literal} (valid : ∀ value ∈ values, value.Valid) :
    (values.map Literal.source).mapM Source.value = .ok values := by
  rw [mapM_eq_ok_iff, List.forall₂_map_left_iff]
  exact List.forall₂_same.mpr fun value member => value_source (valid value member)

end ColumnType

end SchemaNotation
