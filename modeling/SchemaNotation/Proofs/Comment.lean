import SchemaNotation.Comment
import SchemaNotation.Proofs.ColumnType
import SchemaNotation.Proofs.Identifier

/-!
# Where a comment starts

A comment starts at the first two slashes with an even number of apostrophes before
them.  A text is quiet when no comment starts in it.  The search runs through quiet
texts one after the other, and all it carries from one to the next is whether it is
inside a literal.
-/

namespace SchemaNotation.Comment

/-! ## Comment lines -/

theorem startsHere_iff {text : Text} : startsHere text = true ↔ ∃ rest, text = '/' :: '/' :: rest := by
  unfold startsHere Text.startsWith
  rw [Option.isSome_iff_exists]
  constructor
  · rintro ⟨rest, found⟩
    exact ⟨rest, Text.eq_append_of_after? found⟩
  · rintro ⟨rest, rfl⟩
    exact ⟨rest, Text.after?_append "//".toList rest⟩

theorem startsHere_slashes (rest : Text) : startsHere ('/' :: '/' :: rest) = true :=
  startsHere_iff.mpr ⟨rest, rfl⟩

/-- Slashes at the start of a part at the start of a text stand at the start of the text. -/
theorem startsHere_of_isPrefix {part text : Text} (lead : part <+: text)
    (starts : startsHere part = true) : startsHere text = true := by
  obtain ⟨behind, rfl⟩ := lead
  obtain ⟨rest, rfl⟩ := startsHere_iff.mp starts
  exact startsHere_slashes (rest ++ behind)

theorem startsHere_of_stops {text : Text} (stops : Text.Stops (· == '/') text) :
    startsHere text = false := by
  rw [← Bool.not_eq_true, startsHere_iff]
  rintro ⟨rest, rfl⟩
  exact absurd (Text.stops_cons.mp stops) (by decide)

theorem startsHere_cons_of_ne {c : Char} (other : c ≠ '/') (text : Text) :
    startsHere (c :: text) = false :=
  startsHere_of_stops (Text.stops_cons.mpr (by simpa using other))

theorem trimmed_content (line : Text) : Text.Trimmed (content line) := by
  dsimp only [content]
  split
  · exact Text.trimmed_trim _
  · exact Text.trimmed_trim _

theorem content_within (line : Text) : content line <:+: line := by
  dsimp only [content]
  split
  · next text found =>
      have behind : text <:+ Text.trim line := ⟨_, (Text.eq_append_of_after? found).symm⟩
      exact (Text.trim_within text).trans (behind.isInfix.trans (Text.trim_within line))
  · exact Text.trim_within line

theorem content_subset (line : Text) : content line ⊆ line :=
  (content_within line).subset

theorem line_nil : line [] = ['/', '/'] := by
  decide

theorem line_of_ne_nil {text : Text} (trimmed : Text.Trimmed text) (nonempty : text ≠ []) :
    line text = '/' :: '/' :: ' ' :: text := by
  apply Text.trimRight_of_last
  intro c found
  rw [List.getLast?_append_of_ne_nil _ nonempty] at found
  exact trimmed.last c found

/-- A comment line starts with two slashes, ends with no blank, and trimming what
stands behind the slashes gives its text. -/
theorem line_shape {text : Text} (trimmed : Text.Trimmed text) :
    ∃ rest, line text = '/' :: '/' :: rest ∧ Text.trim rest = text ∧
      Text.Trimmed (line text) := by
  by_cases empty : text = []
  · rw [empty, line_nil]
    exact ⟨[], rfl, rfl, by decide⟩
  · refine ⟨' ' :: text, line_of_ne_nil trimmed empty, ?_, ?_⟩
    · exact Text.trim_blank_append (Text.blank_replicate 1) trimmed
    · rw [line_of_ne_nil trimmed empty]
      refine ⟨Text.stops_cons.mpr (by decide), ?_⟩
      intro c found
      rw [List.getLast?_cons_of_ne_nil (by simp), List.getLast?_cons_of_ne_nil (by simp),
        List.getLast?_cons_of_ne_nil empty] at found
      exact trimmed.last c found

theorem startsHere_line {text : Text} (trimmed : Text.Trimmed text) :
    startsHere (line text) = true := by
  obtain ⟨rest, equal, _, _⟩ := line_shape trimmed
  rw [equal]
  exact startsHere_slashes rest

/-- A comment line has the text it was written for. -/
theorem content_line {text : Text} (trimmed : Text.Trimmed text) : content (line text) = text := by
  obtain ⟨rest, equal, inner, whole⟩ := line_shape trimmed
  dsimp only [content]
  rw [whole.trim_eq, equal]
  exact inner

theorem lineFree_line {text : Text} (free : Text.LineFree text) : Text.LineFree (line text) := by
  have whole : Text.LineFree ("// ".toList ++ text) := by
    rw [Text.lineFree_append]
    exact ⟨by decide, free⟩
  exact whole.mono (Text.trimRight_isPrefix _).subset

/-! ## Quiet texts -/

/-- Whether the end of a text is inside a literal. -/
def endsInLiteral (inLiteral : Bool) : Text → Bool
  | [] => inLiteral
  | c :: text => endsInLiteral (if c = apostrophe then !inLiteral else inLiteral) text

/-- No comment starts in the text. -/
def Quiet (inLiteral : Bool) (text : Text) : Prop :=
  startFrom? inLiteral text = none

instance (inLiteral : Bool) (text : Text) : Decidable (Quiet inLiteral text) :=
  inferInstanceAs (Decidable (_ = _))

theorem endsInLiteral_cons_of_ne {c : Char} (other : c ≠ apostrophe) (inLiteral : Bool)
    (text : Text) : endsInLiteral inLiteral (c :: text) = endsInLiteral inLiteral text := by
  rw [endsInLiteral, if_neg other]

theorem endsInLiteral_append (inLiteral : Bool) (first second : Text) :
    endsInLiteral inLiteral (first ++ second) =
      endsInLiteral (endsInLiteral inLiteral first) second := by
  induction first generalizing inLiteral with
  | nil => rfl
  | cons c first ih => exact ih _

theorem endsInLiteral_of_not_mem {text : Text} (clear : apostrophe ∉ text) (inLiteral : Bool) :
    endsInLiteral inLiteral text = inLiteral := by
  induction text with
  | nil => rfl
  | cons c text ih =>
      rw [List.mem_cons, not_or] at clear
      rw [endsInLiteral, if_neg (Ne.symm clear.1), ih clear.2]

theorem quiet_nil (inLiteral : Bool) : Quiet inLiteral [] := rfl

theorem quiet_apostrophe {inLiteral : Bool} {text : Text} :
    Quiet inLiteral (apostrophe :: text) ↔ Quiet (!inLiteral) text := by
  rw [Quiet, startFrom?, if_pos rfl, Option.map_eq_none_iff, Quiet]

theorem quiet_cons {inLiteral : Bool} {c : Char} {text : Text} (other : c ≠ apostrophe) :
    Quiet inLiteral (c :: text) ↔
      (inLiteral = false → startsHere (c :: text) = false) ∧ Quiet inLiteral text := by
  rw [Quiet, startFrom?, if_neg other, Quiet]
  cases inLiteral with
  | true => simp
  | false => cases startsHere (c :: text) <;> simp

/-- Whether a comment starts right here shows in the first two characters. -/
theorem startsHere_append {c : Char} {first second : Text} (stops : Text.Stops (· == '/') second) :
    startsHere (c :: first ++ second) = startsHere (c :: first) := by
  cases first with
  | cons d first =>
      rw [Bool.eq_iff_iff, startsHere_iff, startsHere_iff]
      constructor
      · rintro ⟨rest, equal⟩
        simp only [List.cons_append, List.cons.injEq] at equal
        exact ⟨first, by rw [equal.1, equal.2.1]⟩
      · rintro ⟨rest, equal⟩
        simp only [List.cons.injEq] at equal
        exact ⟨first ++ second, by simp [equal.1, equal.2.1]⟩
  | nil =>
      have single : startsHere [c] = false := by
        rw [← Bool.not_eq_true, startsHere_iff]
        simp
      rw [single, ← Bool.not_eq_true, startsHere_iff]
      rintro ⟨rest, equal⟩
      simp only [List.cons_append, List.nil_append, List.cons.injEq] at equal
      rw [equal.2, Text.stops_cons] at stops
      exact absurd stops (by decide)

/-- A text is quiet when its parts are, provided that no two slashes meet between them. -/
theorem quiet_append_iff {inLiteral : Bool} {first second : Text}
    (stops : Text.Stops (· == '/') second) :
    Quiet inLiteral (first ++ second) ↔
      Quiet inLiteral first ∧ Quiet (endsInLiteral inLiteral first) second := by
  induction first generalizing inLiteral with
  | nil => simp [quiet_nil, endsInLiteral]
  | cons c first ih =>
      by_cases isMark : c = apostrophe
      · rw [isMark, List.cons_append, quiet_apostrophe, quiet_apostrophe, ih, endsInLiteral,
          if_pos rfl]
      · rw [List.cons_append, quiet_cons isMark, quiet_cons isMark, ← List.cons_append,
          startsHere_append stops, ih, endsInLiteral, if_neg isMark, and_assoc]

theorem quiet_of_no_slash {text : Text} (clear : '/' ∉ text) (inLiteral : Bool) :
    Quiet inLiteral text := by
  induction text generalizing inLiteral with
  | nil => exact quiet_nil inLiteral
  | cons c text ih =>
      rw [List.mem_cons, not_or] at clear
      by_cases isMark : c = apostrophe
      · rw [isMark, quiet_apostrophe]
        exact ih clear.2 _
      · rw [quiet_cons isMark]
        exact ⟨fun _ => startsHere_cons_of_ne (Ne.symm clear.1) text, ih clear.2 _⟩

/-- A text without slashes and apostrophes in front changes nothing. -/
theorem quiet_plain_append {plain : Text} (noSlash : '/' ∉ plain) (noApostrophe : apostrophe ∉ plain)
    {inLiteral : Bool} {text : Text} :
    Quiet inLiteral (plain ++ text) ↔ Quiet inLiteral text := by
  induction plain with
  | nil => rfl
  | cons c plain ih =>
      rw [List.mem_cons, not_or] at noSlash noApostrophe
      rw [List.cons_append, quiet_cons (Ne.symm noApostrophe.1), ih noSlash.2 noApostrophe.2]
      simp [startsHere_cons_of_ne (Ne.symm noSlash.1)]

/-- A text without slashes behind changes nothing. -/
theorem quiet_append_plain {plain : Text} (noSlash : '/' ∉ plain) {inLiteral : Bool} {text : Text} :
    Quiet inLiteral (text ++ plain) ↔ Quiet inLiteral text := by
  have stops : Text.Stops (· == '/') plain := by
    intro c found
    rw [beq_eq_false_iff_ne]
    rintro rfl
    exact noSlash (List.mem_of_head? found)
  rw [quiet_append_iff stops]
  exact and_iff_left (quiet_of_no_slash noSlash _)

/-- A text without slashes and apostrophes keeps the texts around it apart. -/
theorem quiet_parted_iff {first plain second : Text} (filled : plain ≠ []) (noSlash : '/' ∉ plain)
    (noApostrophe : apostrophe ∉ plain) {inLiteral : Bool} :
    Quiet inLiteral (first ++ (plain ++ second)) ↔
      Quiet inLiteral first ∧ Quiet (endsInLiteral inLiteral first) second := by
  have stops : Text.Stops (· == '/') (plain ++ second) := by
    intro c found
    rw [List.head?_append_of_ne_nil _ filled] at found
    rw [beq_eq_false_iff_ne]
    rintro rfl
    exact noSlash (List.mem_of_head? found)
  rw [quiet_append_iff stops, quiet_plain_append noSlash noApostrophe]

/-- Inside a literal, only the closing apostrophe can end the silence. -/
theorem quiet_in_literal {text : Text} (clear : apostrophe ∉ text) : Quiet true text := by
  induction text with
  | nil => exact quiet_nil true
  | cons c text ih =>
      rw [List.mem_cons, not_or] at clear
      rw [quiet_cons (Ne.symm clear.1)]
      exact ⟨by simp, ih clear.2⟩

/-- Both parts of a quiet text are quiet. -/
theorem quiet_of_quiet_append {inLiteral : Bool} {first second : Text}
    (quiet : Quiet inLiteral (first ++ second)) :
    Quiet inLiteral first ∧ Quiet (endsInLiteral inLiteral first) second := by
  induction first generalizing inLiteral with
  | nil => exact ⟨quiet_nil inLiteral, quiet⟩
  | cons c first ih =>
      by_cases isMark : c = apostrophe
      · rw [isMark, List.cons_append, quiet_apostrophe] at quiet
        rw [isMark, quiet_apostrophe, endsInLiteral, if_pos rfl]
        exact ih quiet
      · rw [List.cons_append, quiet_cons isMark] at quiet
        rw [quiet_cons isMark, endsInLiteral, if_neg isMark]
        obtain ⟨here, rest⟩ := quiet
        refine ⟨⟨?_, (ih rest).1⟩, (ih rest).2⟩
        intro outside
        rw [← Bool.not_eq_true, startsHere_iff]
        rintro ⟨tail, equal⟩
        have starts := here outside
        rw [← List.cons_append, equal, List.cons_append, List.cons_append,
          startsHere_slashes] at starts
        exact absurd starts (by decide)

/-- What stands between the apostrophes of a text decides where the search is. -/
theorem quiet_middle {inLiteral : Bool} {before part after : Text} (clear : apostrophe ∉ before)
    (quiet : Quiet inLiteral (before ++ (part ++ after))) : Quiet inLiteral part := by
  have behind := (quiet_of_quiet_append quiet).2
  rw [endsInLiteral_of_not_mem clear] at behind
  exact (quiet_of_quiet_append behind).1

theorem endsInLiteral_middle {before after : Text} (beforeClear : apostrophe ∉ before)
    (afterClear : apostrophe ∉ after) (inLiteral : Bool) (part : Text) :
    endsInLiteral inLiteral (before ++ (part ++ after)) = endsInLiteral inLiteral part := by
  rw [endsInLiteral_append, endsInLiteral_of_not_mem beforeClear, endsInLiteral_append,
    endsInLiteral_of_not_mem afterClear]

theorem clear_of_blank {blanks : Text} (blank : Text.Blank blanks) : apostrophe ∉ blanks :=
  Text.not_mem_of_blank (by decide) blank

theorem quiet_trim {inLiteral : Bool} {text : Text} (quiet : Quiet inLiteral text) :
    Quiet inLiteral (Text.trim text) := by
  obtain ⟨before, after, beforeBlank, _, shape⟩ := Text.trim_split text
  rw [shape] at quiet
  exact quiet_middle (clear_of_blank beforeBlank) quiet

theorem endsInLiteral_trim (inLiteral : Bool) (text : Text) :
    endsInLiteral inLiteral (Text.trim text) = endsInLiteral inLiteral text := by
  obtain ⟨before, after, beforeBlank, afterBlank, shape⟩ := Text.trim_split text
  conv_rhs => rw [shape, endsInLiteral_middle (clear_of_blank beforeBlank) (clear_of_blank afterBlank)]

/-- The search for a comment runs through a quiet text. -/
theorem startFrom?_append {inLiteral : Bool} {first second : Text} (quiet : Quiet inLiteral first)
    (stops : Text.Stops (· == '/') second) :
    startFrom? inLiteral (first ++ second) =
      (startFrom? (endsInLiteral inLiteral first) second).map (· + first.length) := by
  induction first generalizing inLiteral with
  | nil => simp [endsInLiteral]
  | cons c first ih =>
      rw [List.cons_append, startFrom?, endsInLiteral, List.length_cons]
      by_cases isMark : c = apostrophe
      · rw [isMark, quiet_apostrophe] at quiet
        rw [if_pos isMark, if_pos isMark, ih quiet, Option.map_map]
        rfl
      · rw [quiet_cons isMark] at quiet
        have silent : ¬(!inLiteral && startsHere (c :: (first ++ second))) = true := by
          rw [← List.cons_append, startsHere_append stops]
          cases inLiteral with
          | true => simp
          | false => simp [quiet.1 rfl]
        rw [if_neg isMark, if_neg isMark, if_neg silent, ih quiet.2, Option.map_map]
        rfl

theorem startFrom?_spaces (gap : Nat) (rest : Text) :
    startFrom? false (List.replicate gap ' ' ++ '/' :: '/' :: rest) = some gap := by
  induction gap with
  | zero =>
      rw [List.replicate_zero, List.nil_append, startFrom?, if_neg (by decide), startsHere_slashes]
      rfl
  | succ gap ih =>
      have silent := startsHere_cons_of_ne (c := ' ') (by decide)
        (List.replicate gap ' ' ++ '/' :: '/' :: rest)
      rw [List.replicate_succ, List.cons_append, startFrom?, if_neg (by decide), silent, ih]
      rfl

/-- A comment starts behind a quiet text that ends outside a literal, when a space
keeps it apart. -/
theorem split_of_quiet {text : Text} (quiet : Quiet false text)
    (outside : endsInLiteral false text = false) (gap : Nat) (rest : Text) :
    split (text ++ List.replicate (gap + 1) ' ' ++ '/' :: '/' :: rest) =
      (text ++ List.replicate (gap + 1) ' ', some rest) := by
  have stops : Text.Stops (· == '/') (List.replicate (gap + 1) ' ' ++ '/' :: '/' :: rest) := by
    rw [List.replicate_succ, List.cons_append, Text.stops_cons]
    decide
  have found : start? (text ++ List.replicate (gap + 1) ' ' ++ '/' :: '/' :: rest) =
      some (text ++ List.replicate (gap + 1) ' ').length := by
    rw [List.append_assoc, start?, startFrom?_append quiet stops, outside, startFrom?_spaces,
      Option.map_some, List.length_append, List.length_replicate, Nat.add_comm]
  rw [split, found]
  simp only [List.take_left, ← List.drop_drop, List.drop_left]
  rfl

/-- A quiet text has no comment. -/
theorem split_of_silent {text : Text} (quiet : Quiet false text) : split text = (text, none) := by
  have found : start? text = none := quiet
  rw [split, found]

/-! ## Quiet names and types -/

theorem startsHere_congr {c : Char} {first second : Text} (same : first.head? = second.head?) :
    startsHere (c :: first) = startsHere (c :: second) := by
  cases first with
  | nil =>
      cases second with
      | nil => rfl
      | cons d second => simp at same
  | cons d first =>
      cases second with
      | nil => simp at same
      | cons e second =>
          simp only [List.head?_cons, Option.some.injEq] at same
          rw [Bool.eq_iff_iff, startsHere_iff, startsHere_iff, same]
          simp

/-- Doubling the backticks of a name moves no slashes together. -/
theorem quiet_double {inLiteral : Bool} {name : Text} :
    Quiet inLiteral (Identifier.double name) ↔ Quiet inLiteral name := by
  induction name generalizing inLiteral with
  | nil => rfl
  | cons c name ih =>
      by_cases isMark : c = backtick
      · have silent := startsHere_cons_of_ne (c := backtick) (by decide)
        rw [isMark, Identifier.double_backtick, quiet_cons (by decide), quiet_cons (by decide),
          quiet_cons (by decide), ih]
        simp [silent]
      · rw [Identifier.double_cons_of_ne isMark]
        by_cases isApostrophe : c = apostrophe
        · rw [isApostrophe, quiet_apostrophe, quiet_apostrophe, ih]
        · rw [quiet_cons isApostrophe, quiet_cons isApostrophe, ih,
            startsHere_congr (Identifier.head?_double name)]

theorem endsInLiteral_double (inLiteral : Bool) (name : Text) :
    endsInLiteral inLiteral (Identifier.double name) = endsInLiteral inLiteral name := by
  induction name generalizing inLiteral with
  | nil => rfl
  | cons c name ih =>
      by_cases isMark : c = backtick
      · rw [isMark, Identifier.double_backtick]
        exact ih inLiteral
      · rw [Identifier.double_cons_of_ne isMark]
        exact ih _

theorem quiet_quote {inLiteral : Bool} {name : Text} :
    Quiet inLiteral (Identifier.quote name) ↔ Quiet inLiteral name := by
  have closes : Text.Stops (· == '/') [backtick] := Text.stops_cons.mpr (by decide)
  have silent := startsHere_cons_of_ne (c := backtick) (by decide)
  have last : ∀ state, Quiet state [backtick] := quiet_of_no_slash (by decide)
  rw [Identifier.quote, List.cons_append, quiet_cons (by decide), quiet_append_iff closes,
    quiet_double]
  simp [silent, last]

theorem endsInLiteral_quote (inLiteral : Bool) (name : Text) :
    endsInLiteral inLiteral (Identifier.quote name) = endsInLiteral inLiteral name := by
  rw [Identifier.quote, List.cons_append, endsInLiteral_cons_of_ne (by decide),
    endsInLiteral_append, endsInLiteral_double]
  rfl

/-- The text of an identifier is as quiet as the name, and leaves the search where the name
does. -/
theorem quiet_identifier {text name : Text} (denotes : Identifier.Denotes text name)
    (inLiteral : Bool) :
    (Quiet inLiteral text ↔ Quiet inLiteral name) ∧
      endsInLiteral inLiteral text = endsInLiteral inLiteral name := by
  rcases Identifier.denotes_iff.mp denotes with ⟨_, rfl⟩ | rfl
  · exact ⟨Iff.rfl, rfl⟩
  · exact ⟨quiet_quote, endsInLiteral_quote inLiteral name⟩

/-- A name with an even number of apostrophes before it and none in it is quiet when it
has no two slashes. -/
theorem quiet_of_no_slashes {name : Text} (noSlashes : ¬"//".toList <:+: name)
    (clear : apostrophe ∉ name) : Quiet false name := by
  induction name with
  | nil => exact quiet_nil false
  | cons c name ih =>
      rw [List.mem_cons, not_or] at clear
      rw [quiet_cons (Ne.symm clear.1)]
      refine ⟨?_, ih (fun inside => noSlashes (inside.trans (List.suffix_cons c name).isInfix))
        clear.2⟩
      intro _
      rw [← Bool.not_eq_true, startsHere_iff]
      rintro ⟨rest, equal⟩
      apply noSlashes
      rw [equal]
      exact ⟨[], rest, rfl⟩

end SchemaNotation.Comment

namespace SchemaNotation.ColumnType

open Literal Comment

/-- Whatever stands in the literals of a type, no comment starts in its written form
behind a name that ends inside or outside a literal. -/
def Quiet (inLiteral : Bool) (type : ColumnType) : Prop :=
  inLiteral = true → ∀ string ∈ type.strings, Comment.Quiet false string

theorem quiet_source (inLiteral : Bool) {literal : Source} (wellFormed : literal.WellFormed) :
    (Comment.Quiet inLiteral literal.text ↔
        (inLiteral = true → ∀ value, literal = .string value → Comment.Quiet false value)) ∧
      endsInLiteral inLiteral literal.text = inLiteral := by
  cases literal with
  | number negative digits =>
      have only : ∀ c ∈ (Source.number negative digits).text, c = '-' ∨ isDigit c = true := by
        intro c member
        cases negative with
        | true =>
            rcases List.mem_cons.mp member with rfl | member
            · exact Or.inl rfl
            · exact Or.inr (wellFormed.2 c member)
        | false => exact Or.inr (wellFormed.2 c member)
      have noSlash : '/' ∉ (Source.number negative digits).text := by
        intro member
        exact absurd (only '/' member) (by decide)
      have noApostrophe : apostrophe ∉ (Source.number negative digits).text := by
        intro member
        exact absurd (only apostrophe member) (by decide)
      constructor
      · simp [quiet_of_no_slash noSlash]
      · exact endsInLiteral_of_not_mem noApostrophe inLiteral
  | string value =>
      have closes : Text.Stops (· == '/') [apostrophe] := Text.stops_cons.mpr (by decide)
      have clear : apostrophe ∉ value := wellFormed
      have last : ∀ state, Comment.Quiet state [apostrophe] := quiet_of_no_slash (by decide)
      constructor
      · rw [Source.text, List.cons_append, quiet_apostrophe, quiet_append_iff closes]
        cases inLiteral with
        | true => simp [last]
        | false => simp [quiet_in_literal clear, last]
      · rw [Source.text, List.cons_append]
        change endsInLiteral (!inLiteral) (value ++ [apostrophe]) = inLiteral
        rw [endsInLiteral_append, endsInLiteral_of_not_mem clear]
        exact Bool.not_not inLiteral

/-- Literals in a row leave the search where they found it, and are quiet exactly when
their texts are that would be looked at outside of literals. -/
theorem Row.quiet {text : Text} {literals : List Source} (row : Row text literals)
    (inLiteral : Bool) :
    (Comment.Quiet inLiteral text ↔
        (inLiteral = true → ∀ value, .string value ∈ literals → Comment.Quiet false value)) ∧
      endsInLiteral inLiteral text = inLiteral := by
  induction row with
  | @last literal wellFormed =>
      obtain ⟨quiet, ends⟩ := quiet_source inLiteral wellFormed
      refine ⟨?_, ends⟩
      rw [quiet]
      simp [eq_comm]
  | @more literal before after text literals wellFormed beforeBlank afterBlank row ih =>
      obtain ⟨quiet, ends⟩ := quiet_source inLiteral wellFormed
      have noSlash : '/' ∉ before ++ '|' :: after := by
        simp only [List.mem_append, List.mem_cons, not_or]
        exact ⟨Text.not_mem_of_blank (by decide) beforeBlank, by decide,
          Text.not_mem_of_blank (by decide) afterBlank⟩
      have noApostrophe : apostrophe ∉ before ++ '|' :: after := by
        simp only [List.mem_append, List.mem_cons, not_or]
        exact ⟨clear_of_blank beforeBlank, by decide, clear_of_blank afterBlank⟩
      rw [show before ++ '|' :: (after ++ text) = (before ++ '|' :: after) ++ text by simp]
      constructor
      · rw [quiet_parted_iff (by simp) noSlash noApostrophe, quiet, ends, ih.1]
        constructor
        · rintro ⟨first, rest⟩ inside value member
          rcases List.mem_cons.mp member with equal | member
          · exact first inside value equal.symm
          · exact rest inside value member
        · intro all
          exact ⟨fun inside value equal => all inside value (by simp [equal]),
            fun inside value member => all inside value (List.mem_cons_of_mem _ member)⟩
      · rw [endsInLiteral_append, ends, endsInLiteral_append,
          endsInLiteral_of_not_mem noApostrophe, ih.2]

/-- The string literals of a row are the texts of the union that the row denotes. -/
theorem string_mem_iff {literals : List Source} {values : List Literal}
    (denotes : List.Forall₂ Source.Denotes literals values) {value : Text} :
    .string value ∈ literals ↔ value ∈ strings (.union values) := by
  rw [strings, List.mem_filterMap]
  constructor
  · intro member
    obtain ⟨found, foundMem, denoted⟩ := exists_of_forall₂ denotes.flip member
    cases denoted
    exact ⟨_, foundMem, rfl⟩
  · rintro ⟨found, foundMem, isString⟩
    obtain ⟨literal, literalMem, denoted⟩ := exists_of_forall₂ denotes foundMem
    cases found with
    | number number => cases isString
    | string text =>
        cases isString
        rwa [string_mem_of_value denoted] at literalMem

/-- The text of a type leaves the search where it found it, and it is quiet exactly when the
type is. -/
theorem Denotes.quiet {text : Text} {type : ColumnType} (denotes : Denotes text type)
    (inLiteral : Bool) :
    (Comment.Quiet inLiteral text ↔ type.Quiet inLiteral) ∧
      endsInLiteral inLiteral text = inLiteral := by
  cases denotes with
  | union row values =>
      obtain ⟨parts, ends⟩ := row.quiet inLiteral
      refine ⟨?_, ends⟩
      rw [parts, Quiet]
      simp only [string_mem_iff values]
  | @simple base length isArray parts =>
      have noSlash : '/' ∉ base ++ suffix length isArray :=
        fun member => absurd (parts.mem member) (by decide)
      have noApostrophe : apostrophe ∉ base ++ suffix length isArray :=
        fun member => absurd (parts.mem member) (by decide)
      refine ⟨iff_of_true (quiet_of_no_slash noSlash inLiteral) ?_,
        endsInLiteral_of_not_mem noApostrophe inLiteral⟩
      intro _ string member
      rw [strings, List.mem_singleton] at member
      exact quiet_of_no_slash (fun slash => noSlash (by simp [← member, slash])) false

end SchemaNotation.ColumnType
