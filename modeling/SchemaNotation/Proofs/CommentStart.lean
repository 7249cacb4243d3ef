import Mathlib.Algebra.Group.Nat.Even
import SchemaNotation.Proofs.Comment

/-!
# The places where a comment can start

A comment can start at two slashes with an even number of apostrophes before them, and the
search finds the first such place.  So a line is cut there into a definition and the text of
a comment, and it has no comment when there is no such place.
-/

namespace SchemaNotation.Comment

/-! ## The first place -/

/-- A place where a comment can start in a text that starts inside or outside a literal. -/
def OpensFrom (inLiteral : Bool) (text : Text) (position : Nat) : Prop :=
  startsHere (text.drop position) = true ∧ endsInLiteral inLiteral (text.take position) = false

/-- A place where a comment can start: two slashes with an even number of apostrophes before
them. -/
def OpensAt (text : Text) (position : Nat) : Prop :=
  startsHere (text.drop position) = true ∧ Even ((text.take position).count apostrophe)

theorem OpensAt.lt_length {text : Text} {position : Nat} (opens : OpensAt text position) :
    position < text.length := by
  obtain ⟨rest, shape⟩ := startsHere_iff.mp opens.1
  have filled := congrArg List.length shape
  rw [List.length_drop, List.length_cons] at filled
  omega

/-- An even number of apostrophes leaves the search where it was. -/
theorem endsInLiteral_eq_self_iff {inLiteral : Bool} {text : Text} :
    endsInLiteral inLiteral text = inLiteral ↔ Even (text.count apostrophe) := by
  induction text generalizing inLiteral with
  | nil => simp [endsInLiteral]
  | cons c text ih =>
      rw [endsInLiteral]
      by_cases isMark : c = apostrophe
      · rw [if_pos isMark, isMark, List.count_cons_self, Nat.even_add_one, ← ih, Bool.eq_not,
          ne_eq, not_not]
      · rw [if_neg isMark, List.count_cons_of_ne isMark, ih]

theorem opensFrom_false {text : Text} {position : Nat} :
    OpensFrom false text position ↔ OpensAt text position := by
  rw [OpensFrom, OpensAt, endsInLiteral_eq_self_iff]

theorem opensFrom_zero {inLiteral : Bool} {text : Text} :
    OpensFrom inLiteral text 0 ↔ startsHere text = true ∧ inLiteral = false :=
  Iff.rfl

theorem opensFrom_succ {inLiteral : Bool} {c : Char} {text : Text} {position : Nat} :
    OpensFrom inLiteral (c :: text) (position + 1) ↔
      OpensFrom (if c = apostrophe then !inLiteral else inLiteral) text position :=
  Iff.rfl

theorem startFrom?_cons (inLiteral : Bool) (c : Char) (text : Text) :
    startFrom? inLiteral (c :: text) =
      if !inLiteral && startsHere (c :: text) then some 0
      else (startFrom? (if c = apostrophe then !inLiteral else inLiteral) text).map (· + 1) := by
  rw [startFrom?]
  by_cases isMark : c = apostrophe
  · have silent := startsHere_cons_of_ne (c := c) (by rw [isMark]; decide) text
    simp [isMark ▸ silent, isMark]
  · simp [isMark]

/-- The search finds the first place where a comment can start. -/
theorem opensFrom_of_startFrom? {inLiteral : Bool} {text : Text} {position : Nat}
    (found : startFrom? inLiteral text = some position) :
    OpensFrom inLiteral text position ∧
      ∀ earlier < position, ¬OpensFrom inLiteral text earlier := by
  induction text generalizing inLiteral position with
  | nil => cases found
  | cons c text ih =>
      rw [startFrom?_cons] at found
      split at found
      · next starts =>
          cases found
          simp only [Bool.and_eq_true, Bool.not_eq_true'] at starts
          exact ⟨opensFrom_zero.mpr ⟨starts.2, starts.1⟩, by simp⟩
      · next silent =>
          obtain ⟨shorter, behind, rfl⟩ := Option.map_eq_some_iff.mp found
          obtain ⟨opens, least⟩ := ih behind
          refine ⟨opensFrom_succ.mpr opens, ?_⟩
          intro earlier before opensEarlier
          cases earlier with
          | zero =>
              obtain ⟨starts, outside⟩ := opensFrom_zero.mp opensEarlier
              exact silent (by simp [starts, outside])
          | succ earlier =>
              exact least earlier (Nat.lt_of_succ_lt_succ before) (opensFrom_succ.mp opensEarlier)

theorem not_opensFrom_of_startFrom? {inLiteral : Bool} {text : Text}
    (silent : startFrom? inLiteral text = none) (position : Nat) :
    ¬OpensFrom inLiteral text position := by
  induction text generalizing inLiteral position with
  | nil =>
      intro opens
      rw [OpensFrom, List.drop_nil] at opens
      exact absurd opens.1 (by decide)
  | cons c text ih =>
      rw [startFrom?_cons] at silent
      split at silent
      · cases silent
      · next noStart =>
          intro opens
          cases position with
          | zero =>
              obtain ⟨starts, outside⟩ := opensFrom_zero.mp opens
              exact noStart (by simp [starts, outside])
          | succ position =>
              exact ih (Option.map_eq_none_iff.mp silent) position (opensFrom_succ.mp opens)

theorem quiet_iff {text : Text} : Quiet false text ↔ ∀ position, ¬OpensAt text position := by
  constructor
  · intro quiet position opens
    exact not_opensFrom_of_startFrom? quiet position (opensFrom_false.mpr opens)
  · intro silent
    cases found : startFrom? false text with
    | none => exact found
    | some position =>
        exact (silent position (opensFrom_false.mp (opensFrom_of_startFrom? found).1)).elim

/-- Without apostrophes a comment can start at any two slashes. -/
theorem quiet_iff_of_clear {text : Text} (clear : apostrophe ∉ text) :
    Quiet false text ↔ ¬"//".toList <:+: text := by
  refine ⟨?_, fun noSlashes => quiet_of_no_slashes noSlashes clear⟩
  rintro quiet ⟨front, rest, rfl⟩
  have outside : apostrophe ∉ front := fun member => clear (by simp [member])
  refine quiet_iff.mp quiet front.length ⟨?_, ?_⟩
  · rw [List.append_assoc, List.drop_left]
    exact startsHere_slashes rest
  · rw [List.append_assoc, List.take_left, List.count_eq_zero_of_not_mem outside]
    exact Even.zero

/-- A comment starts at the first place where one can start. -/
theorem start?_eq_some_iff {text : Text} {position : Nat} :
    start? text = some position ↔
      OpensAt text position ∧ ∀ earlier < position, ¬OpensAt text earlier := by
  constructor
  · intro found
    obtain ⟨opens, least⟩ := opensFrom_of_startFrom? found
    exact ⟨opensFrom_false.mp opens,
      fun earlier before opensEarlier => least earlier before (opensFrom_false.mpr opensEarlier)⟩
  · rintro ⟨opens, least⟩
    cases found : start? text with
    | none => exact (quiet_iff.mp found position opens).elim
    | some other =>
        obtain ⟨otherOpens, otherLeast⟩ := opensFrom_of_startFrom? found
        rcases Nat.lt_trichotomy other position with before | same | behind
        · exact (least other before (opensFrom_false.mp otherOpens)).elim
        · rw [same]
        · exact (otherLeast position behind (opensFrom_false.mpr opens)).elim

/-! ## Cutting a line -/

/-- How a line is cut into a definition and the text behind the slashes of its comment: the
slashes are the first ones with an even number of apostrophes before them. -/
inductive Divides : Text → Text → Option Text → Prop where
  | whole {line : Text} : (∀ position, ¬OpensAt line position) → Divides line line none
  | comment {definition rest : Text} :
      Even (definition.count apostrophe) →
      (∀ earlier < definition.length, ¬OpensAt (definition ++ '/' :: '/' :: rest) earlier) →
      Divides (definition ++ '/' :: '/' :: rest) definition (some rest)

/-- A line is cut in one way. -/
theorem split_eq_iff {line definition : Text} {rest : Option Text} :
    split line = (definition, rest) ↔ Divides line definition rest := by
  constructor
  · intro cut
    rw [split] at cut
    split at cut
    · next silent =>
        cases cut
        exact .whole (quiet_iff.mp silent)
    · next position found =>
        cases cut
        obtain ⟨opens, least⟩ := start?_eq_some_iff.mp found
        obtain ⟨behind, shape⟩ := startsHere_iff.mp opens.1
        have whole : line.take position ++ '/' :: '/' :: behind = line := by
          rw [← shape, List.take_append_drop]
        have rest : line.drop (position + 2) = behind := by
          rw [← List.drop_drop, shape]
          rfl
        have first : ∀ earlier < (line.take position).length,
            ¬OpensAt (line.take position ++ '/' :: '/' :: behind) earlier := by
          rwa [whole, List.length_take_of_le opens.lt_length.le]
        have divides := Divides.comment opens.2 first
        rwa [whole, ← rest] at divides
  · intro divides
    cases divides with
    | whole silent => exact split_of_silent (quiet_iff.mpr silent)
    | @comment definition rest even least =>
        have found : start? (definition ++ '/' :: '/' :: rest) = some definition.length := by
          rw [start?_eq_some_iff]
          refine ⟨⟨?_, ?_⟩, least⟩
          · rw [List.drop_left]
            exact startsHere_slashes rest
          · rwa [List.take_left]
        rw [split, found]
        simp only [List.take_left, ← List.drop_drop, List.drop_left]
        rfl

/-- Every line is cut in some way. -/
theorem exists_divides (line : Text) : ∃ definition rest, Divides line definition rest :=
  ⟨(split line).1, (split line).2, split_eq_iff.mp rfl⟩

section

variable {line definition : Text} {rest : Option Text}

theorem divides_none_iff : Divides line definition none ↔ definition = line ∧ Quiet false line := by
  constructor
  · intro divides
    cases divides with
    | whole silent => exact ⟨rfl, quiet_iff.mpr silent⟩
  · rintro ⟨rfl, quiet⟩
    exact .whole (quiet_iff.mp quiet)

/-- No comment starts in front of the place where a line is cut. -/
theorem Divides.quiet (divides : Divides line definition rest) : Quiet false definition := by
  cases divides with
  | whole silent => exact quiet_iff.mpr silent
  | comment _ least =>
      rw [quiet_iff]
      intro position opens
      have bounded := opens.lt_length
      refine least position bounded ⟨?_, ?_⟩
      · obtain ⟨rest, shape⟩ := startsHere_iff.mp opens.1
        rw [List.drop_append_of_le_length bounded.le, shape]
        exact startsHere_slashes _
      · rw [List.take_append_of_le_length bounded.le]
        exact opens.2

/-- A line that is not cut at a comment is quiet, and one that is cut is so outside of
literals. -/
theorem Divides.exists_behind (divides : Divides line definition rest) :
    ∃ behind, line = definition ++ behind ∧
      (behind = [] ∧ Quiet false line ∨ endsInLiteral false definition = false) := by
  cases divides with
  | whole silent => exact ⟨[], (List.append_nil _).symm, Or.inl ⟨rfl, quiet_iff.mpr silent⟩⟩
  | comment even => exact ⟨_, rfl, Or.inr (endsInLiteral_eq_self_iff.mpr even)⟩

theorem Divides.outside {rest : Text} (divides : Divides line definition (some rest)) :
    endsInLiteral false definition = false := by
  cases divides with
  | comment even => exact endsInLiteral_eq_self_iff.mpr even

theorem Divides.isPrefix (divides : Divides line definition rest) : definition <+: line := by
  cases divides with
  | whole => exact List.prefix_rfl
  | comment => exact List.prefix_append _ _

/-- The slashes and the text behind them end the line. -/
theorem Divides.isSuffix {rest : Text} (divides : Divides line definition (some rest)) :
    '/' :: '/' :: rest <:+ line := by
  cases divides with
  | comment => exact List.suffix_append _ _

end

end SchemaNotation.Comment
