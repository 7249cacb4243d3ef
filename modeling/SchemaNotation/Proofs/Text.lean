import Mathlib.Data.List.DropRight
import SchemaNotation.Text.Scan
import SchemaNotation.Text.Line

/-!
# Trimming, cutting and padding

The readers trim almost everything they look at, and the writers put blanks
around what they write.  This module states when the two cancel.  It also has the
texts that fit on one line, because everything a document is read into has been
cut out of a single line.
-/

namespace SchemaNotation.Text

/-! ## Longest runs -/

/-- A text that does not go on with a character of the given class, so that a longest
run of the class ends before it. -/
def Stops (isMember : Char → Bool) (text : Text) : Prop :=
  ∀ c, text.head? = some c → isMember c = false

theorem stops_nil (isMember : Char → Bool) : Stops isMember [] := by
  intro c found
  simp at found

theorem stops_cons {isMember : Char → Bool} {c : Char} {text : Text} :
    Stops isMember (c :: text) ↔ isMember c = false := by
  simp [Stops]

theorem takeWhile_append_of_stops {isMember : Char → Bool} {run rest : Text}
    (inside : ∀ c ∈ run, isMember c = true) (stops : Stops isMember rest) :
    (run ++ rest).takeWhile isMember = run := by
  rw [List.takeWhile_append_of_pos inside]
  cases rest with
  | nil => rw [List.takeWhile_nil, List.append_nil]
  | cons c rest => simp [stops_cons.mp stops]

theorem dropWhile_append_of_stops {isMember : Char → Bool} {run rest : Text}
    (inside : ∀ c ∈ run, isMember c = true) (stops : Stops isMember rest) :
    (run ++ rest).dropWhile isMember = rest := by
  rw [List.dropWhile_append_of_pos inside]
  cases rest with
  | nil => rfl
  | cons c rest => simp [stops_cons.mp stops]

theorem stops_dropWhile (isMember : Char → Bool) (text : Text) :
    Stops isMember (text.dropWhile isMember) := by
  intro c found
  have clear := List.head?_dropWhile_not isMember text
  rw [found] at clear
  simpa using clear

theorem mem_takeWhile {isMember : Char → Bool} {text : Text} {c : Char}
    (member : c ∈ text.takeWhile isMember) : isMember c = true :=
  List.all_eq_true.mp List.all_takeWhile c member

/-! ## Blanks at the ends -/

/-- A text that neither starts nor ends with a blank. -/
structure Trimmed (text : Text) : Prop where
  first : Stops isBlank text
  last : ∀ c, text.getLast? = some c → isBlank c = false

/-- A text of blanks only. -/
def Blank (text : Text) : Prop :=
  ∀ c ∈ text, isBlank c = true

instance (text : Text) : Decidable (Blank text) :=
  List.decidableBAll _ text

theorem blank_replicate (count : Nat) : Blank (List.replicate count ' ') := by
  intro c member
  rw [List.eq_of_mem_replicate member]
  rfl

theorem not_mem_of_blank {c : Char} (solid : isBlank c = false) {blanks : Text}
    (blank : Blank blanks) : c ∉ blanks := by
  intro member
  rw [blank c member] at solid
  cases solid

theorem trimLeft_of_stops {text : Text} (stops : Stops isBlank text) : trimLeft text = text :=
  dropWhile_append_of_stops (List.forall_mem_nil _) stops

theorem trimRight_of_last {text : Text}
    (last : ∀ c, text.getLast? = some c → isBlank c = false) : trimRight text = text := by
  change List.rdropWhile isBlank text = text
  rw [List.rdropWhile_eq_self_iff]
  intro nonempty blank
  have clear := last _ (List.getLast?_eq_some_getLast nonempty)
  rw [clear] at blank
  exact Bool.false_ne_true blank

theorem Trimmed.trim_eq {text : Text} (trimmed : Trimmed text) : trim text = text := by
  unfold trim
  rw [trimLeft_of_stops trimmed.first]
  exact trimRight_of_last trimmed.last

/-- A text is trimmed when its front does not start with a blank and its back does not end
with one. -/
theorem trimmed_append {front back : Text} (frontFilled : front ≠ []) (starts : Stops isBlank front)
    (backFilled : back ≠ []) (trimmed : Trimmed back) : Trimmed (front ++ back) := by
  constructor
  · intro c found
    rw [List.head?_append_of_ne_nil _ frontFilled] at found
    exact starts c found
  · intro c found
    rw [List.getLast?_append_of_ne_nil _ backFilled] at found
    exact trimmed.last c found

/-- What stands at the end of a trimmed text is not blank. -/
theorem Trimmed.not_blank_of_suffix {text back : Text} (trimmed : Trimmed text)
    (suffix : back <:+ text) (filled : back ≠ []) : ¬Blank back := by
  intro blank
  obtain ⟨front, rfl⟩ := suffix
  have solid := trimmed.last (back.getLast filled) (by
    rw [List.getLast?_append_of_ne_nil _ filled, List.getLast?_eq_some_getLast])
  rw [blank _ (List.getLast_mem filled)] at solid
  cases solid

theorem trimmed_joined (separator : Text) {first next : Text} (firstFilled : first ≠ [])
    (starts : Stops isBlank first) (nextFilled : next ≠ []) (trimmed : Trimmed next) :
    Trimmed (first ++ separator ++ next) := by
  have frontStarts : Stops isBlank (first ++ separator) := by
    intro c found
    rw [List.head?_append_of_ne_nil _ firstFilled] at found
    exact starts c found
  exact trimmed_append (by simp [firstFilled]) frontStarts nextFilled trimmed

theorem trimmed_of_no_blank {text : Text} (clear : ∀ c ∈ text, isBlank c = false) :
    Trimmed text := by
  constructor
  · intro c found
    exact clear c (List.mem_of_head? found)
  · intro c found
    exact clear c (List.mem_of_getLast? found)

theorem stops_trimLeft (text : Text) : Stops isBlank (trimLeft text) :=
  stops_dropWhile isBlank text

theorem trimRight_last {text : Text} {c : Char} (found : (trimRight text).getLast? = some c) :
    isBlank c = false := by
  unfold trimRight at found
  rw [List.getLast?_reverse] at found
  exact stops_trimLeft _ c found

theorem trimLeft_suffix (text : Text) : trimLeft text <:+ text :=
  List.dropWhile_suffix isBlank

theorem trimRight_isPrefix (text : Text) : trimRight text <+: text :=
  List.rdropWhile_prefix isBlank text

/-- Cutting blanks off the end leaves the first character where it is. -/
theorem trimRight_head {text : Text} {c : Char} (found : (trimRight text).head? = some c) :
    text.head? = some c := by
  obtain ⟨tail, equal⟩ := trimRight_isPrefix text
  rw [← equal, List.head?_append, found]
  rfl

theorem trimmed_trim (text : Text) : Trimmed (trim text) := by
  constructor
  · intro c found
    exact stops_trimLeft text c (trimRight_head found)
  · intro c found
    exact trimRight_last found

instance (text : Text) : Decidable (Trimmed text) :=
  decidable_of_iff (trim text = text) ⟨fun same => same ▸ trimmed_trim text, Trimmed.trim_eq⟩

@[simp] theorem trim_trim (text : Text) : trim (trim text) = trim text :=
  (trimmed_trim text).trim_eq

theorem trimLeft_blank_append {blanks : Text} (blank : Blank blanks) (text : Text) :
    trimLeft (blanks ++ text) = trimLeft text :=
  List.dropWhile_append_of_pos blank

theorem trimRight_append_blank {blanks : Text} (blank : Blank blanks) (text : Text) :
    trimRight (text ++ blanks) = trimRight text := by
  unfold trimRight
  rw [List.reverse_append, List.dropWhile_append_of_pos]
  intro c member
  exact blank c (List.mem_reverse.mp member)

theorem trimLeft_append {text : Text} (filled : trimLeft text ≠ []) (rest : Text) :
    trimLeft (text ++ rest) = trimLeft text ++ rest := by
  rw [trimLeft, List.dropWhile_append, if_neg]
  · rfl
  · rwa [List.isEmpty_iff]

/-- Blanks around a trimmed text are all that trimming takes away. -/
theorem trim_between_blanks {before after text : Text} (beforeBlank : Blank before)
    (afterBlank : Blank after) (trimmed : Trimmed text) :
    trim (before ++ text ++ after) = text := by
  unfold trim
  rw [List.append_assoc, trimLeft_blank_append beforeBlank]
  cases text with
  | nil =>
      have gone := trimLeft_blank_append afterBlank []
      rw [List.append_nil] at gone
      rw [List.nil_append, gone]
      rfl
  | cons c text =>
      rw [trimLeft_of_stops, trimRight_append_blank afterBlank,
        trimRight_of_last trimmed.last]
      intro d found
      exact trimmed.first d (by simpa using found)

theorem trim_blank_append {blanks text : Text} (blank : Blank blanks) (trimmed : Trimmed text) :
    trim (blanks ++ text) = text := by
  have nothing : Blank [] := by simp [Blank]
  simpa using trim_between_blanks blank nothing trimmed

theorem trim_append_blank {blanks text : Text} (blank : Blank blanks) (trimmed : Trimmed text) :
    trim (text ++ blanks) = text := by
  have nothing : Blank [] := by simp [Blank]
  exact trim_between_blanks nothing blank trimmed

/-- What trimming on the left cuts off is blank. -/
theorem trimLeft_split (text : Text) : ∃ blanks, Blank blanks ∧ text = blanks ++ trimLeft text := by
  refine ⟨text.takeWhile isBlank, ?_, List.takeWhile_append_dropWhile.symm⟩
  intro c member
  exact mem_takeWhile member

/-- What trimming on the right cuts off is blank. -/
theorem trimRight_split (text : Text) :
    ∃ blanks, Blank blanks ∧ text = trimRight text ++ blanks := by
  obtain ⟨blanks, blank, equal⟩ := trimLeft_split text.reverse
  refine ⟨blanks.reverse, ?_, ?_⟩
  · intro c member
    exact blank c (List.mem_reverse.mp member)
  · have reversed := congrArg List.reverse equal
    rwa [List.reverse_reverse, List.reverse_append] at reversed

/-- A text is its trimmed form with blanks around. -/
theorem trim_split (text : Text) :
    ∃ before after, Blank before ∧ Blank after ∧ text = before ++ (trim text ++ after) := by
  obtain ⟨before, beforeBlank, equal⟩ := trimLeft_split text
  obtain ⟨after, afterBlank, rest⟩ := trimRight_split (trimLeft text)
  refine ⟨before, after, beforeBlank, afterBlank, ?_⟩
  rw [trim, ← rest]
  exact equal

theorem trim_of_blank_append {blanks : Text} (blank : Blank blanks) (text : Text) :
    trim (blanks ++ text) = trim text := by
  rw [trim, trimLeft_blank_append blank, ← trim]

theorem trim_of_append_blank {blanks : Text} (blank : Blank blanks) (text : Text) :
    trim (text ++ blanks) = trim text := by
  obtain ⟨before, after, beforeBlank, afterBlank, equal⟩ := trim_split text
  have bothBlank : Blank (after ++ blanks) := by
    intro c member
    rcases List.mem_append.mp member with here | behind
    · exact afterBlank c here
    · exact blank c behind
  have regroup : text ++ blanks = before ++ trim text ++ (after ++ blanks) := by
    conv_lhs => rw [equal]
    simp only [List.append_assoc]
  rw [regroup, trim_between_blanks beforeBlank bothBlank (trimmed_trim text)]

theorem trim_trimRight (text : Text) : trim (trimRight text) = trim text := by
  obtain ⟨blanks, blank, equal⟩ := trimRight_split text
  conv_rhs => rw [equal, trim_of_append_blank blank]

/-- What trimming on the right leaves of a text depends on what it leaves behind the first
character. -/
theorem trimRight_cons_congr {first second : Text} (same : trimRight first = trimRight second)
    (c : Char) : trimRight (c :: first) = trimRight (c :: second) := by
  obtain ⟨firstBlanks, firstBlank, firstEqual⟩ := trimRight_split first
  obtain ⟨secondBlanks, secondBlank, secondEqual⟩ := trimRight_split second
  rw [firstEqual, secondEqual, same, ← List.cons_append, ← List.cons_append,
    trimRight_append_blank firstBlank, trimRight_append_blank secondBlank]

theorem map_trimRight_pushFront {first second : List Text}
    (same : first.map trimRight = second.map trimRight) (c : Char) :
    (pushFront c first).map trimRight = (pushFront c second).map trimRight := by
  cases first with
  | nil =>
      rw [List.map_nil, eq_comm, List.map_eq_nil_iff] at same
      rw [same]
  | cons firstPiece first =>
      cases second with
      | nil => cases same
      | cons secondPiece second =>
          rw [List.map_cons, List.map_cons, List.cons.injEq] at same
          rw [pushFront, pushFront, List.map_cons, List.map_cons,
            trimRight_cons_congr same.1 c, same.2]

/-- What is neither empty nor starts or ends with a blank stays when a text is trimmed, and so
does everything between it and the blanks at the ends. -/
theorem trim_around {middle : Text} (filled : middle ≠ []) (trimmed : Trimmed middle)
    (front back : Text) :
    trim (front ++ (middle ++ back)) = trimLeft front ++ (middle ++ trimRight back) := by
  obtain ⟨before, beforeBlank, frontEqual⟩ := trimLeft_split front
  obtain ⟨after, afterBlank, backEqual⟩ := trimRight_split back
  have regroup : front ++ (middle ++ back) =
      before ++ (trimLeft front ++ (middle ++ trimRight back)) ++ after := by
    conv_lhs => rw [frontEqual, backEqual]
    simp only [List.append_assoc]
  rw [regroup]
  apply trim_between_blanks beforeBlank afterBlank
  constructor
  · intro c found
    cases start : trimLeft front with
    | nil =>
        rw [start, List.nil_append, List.head?_append_of_ne_nil _ filled] at found
        exact trimmed.first c found
    | cons d rest =>
        rw [start] at found
        exact stops_trimLeft front c (by rwa [start])
  · intro c found
    cases stop : trimRight back with
    | nil =>
        rw [stop, List.append_nil, List.getLast?_append_of_ne_nil _ filled] at found
        exact trimmed.last c found
    | cons d rest =>
        rw [List.getLast?_append_of_ne_nil _ (by simp [filled]),
          List.getLast?_append_of_ne_nil _ (by simp [stop])] at found
        exact trimRight_last found

/-- A trimmed text at the end keeps the blanks in front of it. -/
theorem trim_append {tail : Text} (filled : tail ≠ []) (trimmed : Trimmed tail) (text : Text) :
    trim (text ++ tail) = trimLeft text ++ tail := by
  have around := trim_around filled trimmed text []
  rwa [List.append_nil, trimRight_of_last (by simp), List.append_nil] at around

theorem trim_append_solid {c : Char} (solid : isBlank c = false) (text : Text) :
    trim (text ++ [c]) = trimLeft text ++ [c] :=
  trim_append (List.cons_ne_nil c []) (trimmed_of_no_blank (by simpa using solid)) text

theorem trim_within (text : Text) : trim text <:+: text :=
  (trimRight_isPrefix (trimLeft text)).isInfix.trans (trimLeft_suffix text).isInfix

theorem trim_subset (text : Text) : trim text ⊆ text :=
  (trim_within text).subset

/-! ## Leads and tails -/

@[simp] theorem after?_append (lead rest : Text) : after? lead (lead ++ rest) = some rest := by
  induction lead with
  | nil => rfl
  | cons c lead ih => simpa [after?] using ih

theorem eq_append_of_after? {lead text rest : Text} (found : after? lead text = some rest) :
    text = lead ++ rest := by
  induction lead generalizing text with
  | nil =>
      simp only [after?, Option.some.injEq] at found
      exact found
  | cons expected lead ih =>
      cases text with
      | nil => simp [after?] at found
      | cons c text =>
          simp only [after?] at found
          split at found
          · next equal => rw [equal, ih found, List.cons_append]
          · simp at found

theorem before?_append (tail rest : Text) : before? tail (rest ++ tail) = some rest := by
  simp [before?]

theorem eq_append_of_before? {tail text rest : Text} (found : before? tail text = some rest) :
    text = rest ++ tail := by
  simp only [before?, Option.map_eq_some_iff] at found
  obtain ⟨reversed, found, rfl⟩ := found
  have equal := congrArg List.reverse (eq_append_of_after? found)
  simpa using equal

theorem before?_eq_none_iff {tail text : Text} : before? tail text = none ↔ ¬tail <:+ text := by
  constructor
  · rintro absent ⟨rest, rfl⟩
    rw [before?_append] at absent
    cases absent
  · intro other
    cases found : before? tail text with
    | none => rfl
    | some rest => exact (other ⟨rest, (eq_append_of_before? found).symm⟩).elim

theorem mem_intercalate {separator : Text} {pieces : List Text} {c : Char}
    (member : c ∈ List.intercalate separator pieces) :
    c ∈ separator ∨ ∃ piece ∈ pieces, c ∈ piece := by
  induction pieces with
  | nil => cases member
  | cons piece pieces ih =>
      cases pieces with
      | nil =>
          rw [List.intercalate_singleton] at member
          exact Or.inr ⟨piece, by simp, member⟩
      | cons next pieces =>
          rw [List.intercalate_cons_cons, List.append_assoc, List.mem_append, List.mem_append]
            at member
          rcases member with here | between | later
          · exact Or.inr ⟨piece, by simp, here⟩
          · exact Or.inl between
          · rcases ih later with between | ⟨other, otherMem, inside⟩
            · exact Or.inl between
            · exact Or.inr ⟨other, List.mem_cons_of_mem _ otherMem, inside⟩

theorem intercalate_append (separator : Text) {first second : List Text} (filled : first ≠ [])
    (further : second ≠ []) :
    List.intercalate separator (first ++ second) =
      List.intercalate separator first ++ (separator ++ List.intercalate separator second) := by
  induction first with
  | nil => exact (filled rfl).elim
  | cons piece first ih =>
      cases first with
      | nil =>
          rw [List.singleton_append, List.intercalate_cons_of_ne_nil further,
            List.intercalate_singleton, List.append_assoc]
      | cons next first =>
          rw [List.cons_append, List.cons_append, List.intercalate_cons_cons, ← List.cons_append,
            ih (by simp), List.intercalate_cons_cons]
          simp only [List.append_assoc]

/-- Pieces that are trimmed and not empty are joined to such a text. -/
theorem trimmed_intercalate (separator : Text) {pieces : List Text} (filled : pieces ≠ [])
    (trimmed : ∀ piece ∈ pieces, piece ≠ [] ∧ Trimmed piece) :
    List.intercalate separator pieces ≠ [] ∧ Trimmed (List.intercalate separator pieces) := by
  induction pieces with
  | nil => exact (filled rfl).elim
  | cons piece pieces ih =>
      obtain ⟨pieceFilled, pieceTrimmed⟩ := trimmed piece (by simp)
      cases pieces with
      | nil =>
          rw [List.intercalate_singleton]
          exact ⟨pieceFilled, pieceTrimmed⟩
      | cons next pieces =>
          obtain ⟨restFilled, restTrimmed⟩ := ih (by simp) fun other member =>
            trimmed other (List.mem_cons_of_mem piece member)
          rw [List.intercalate_cons_cons]
          constructor
          · simp [restFilled]
          · exact trimmed_joined separator pieceFilled pieceTrimmed.first restFilled restTrimmed

theorem mem_pushFront {c : Char} {piece : Text} {pieces : List Text}
    (member : piece ∈ pushFront c pieces) :
    (∃ first, (first = [] ∨ first ∈ pieces) ∧ piece = c :: first) ∨ piece ∈ pieces := by
  cases pieces with
  | nil =>
      rw [pushFront, List.mem_singleton] at member
      exact Or.inl ⟨[], Or.inl rfl, member⟩
  | cons first pieces =>
      rw [pushFront] at member
      rcases List.mem_cons.mp member with equal | member
      · exact Or.inl ⟨first, Or.inr (by simp), equal⟩
      · exact Or.inr (List.mem_cons_of_mem _ member)

theorem intercalate_pushFront (separator : Text) (c : Char) {pieces : List Text}
    (filled : pieces ≠ []) :
    List.intercalate separator (pushFront c pieces) =
      c :: List.intercalate separator pieces := by
  cases pieces with
  | nil => exact (filled rfl).elim
  | cons piece pieces =>
      cases pieces with
      | nil => rfl
      | cons next pieces =>
          rw [pushFront, List.intercalate_cons_cons, List.intercalate_cons_cons]
          rfl

theorem pushFront_eq_singleton {c : Char} {text : Text} {pieces : List Text}
    (single : pushFront c pieces = [c :: text]) (filled : pieces ≠ []) : pieces = [text] := by
  obtain ⟨piece, others, rfl⟩ := List.exists_cons_of_ne_nil filled
  simpa [pushFront] using single

/-- Pieces that are cut out of a text: the first one stands at its start, and the others
stand anywhere in it. -/
def Cut (text : Text) : List Text → Prop
  | [] => False
  | first :: others => first <+: text ∧ ∀ piece ∈ others, piece <:+: text

theorem Cut.within {text piece : Text} {pieces : List Text} (cut : Cut text pieces)
    (member : piece ∈ pieces) : piece <:+: text := by
  cases pieces with
  | nil => cases member
  | cons first others =>
      rcases List.mem_cons.mp member with rfl | member
      · exact cut.1.isInfix
      · exact cut.2 piece member

theorem cut_singleton (text : Text) : Cut text [text] :=
  ⟨List.prefix_rfl, List.forall_mem_nil _⟩

/-- A cut at the start of a text leaves nothing in front of what follows. -/
theorem Cut.nil_cons {whole text : Text} {pieces : List Text} (cut : Cut text pieces)
    (suffix : text <:+ whole) : Cut whole ([] :: pieces) :=
  ⟨List.nil_prefix, fun _ member => (cut.within member).trans suffix.isInfix⟩

theorem Cut.pushFront {text : Text} {pieces : List Text} (cut : Cut text pieces) (c : Char) :
    Cut (c :: text) (pushFront c pieces) := by
  cases pieces with
  | nil => exact cut.elim
  | cons first others =>
      refine ⟨(List.prefix_cons_inj c).mpr cut.1, ?_⟩
      intro piece member
      exact (cut.2 piece member).trans (List.suffix_cons c text).isInfix

theorem splitOn_eq (separator : Char) (text : Text) :
    splitOn separator text = List.splitOn separator text := by
  induction text with
  | nil => rfl
  | cons c text ih =>
      rw [splitOn, List.splitOn_cons_eq_if_modifyHead, ih]
      by_cases same : c = separator
      · simp [same]
      · have filled := List.splitOn_ne_nil separator text
        cases pieces : List.splitOn separator text with
        | nil => exact (filled pieces).elim
        | cons piece pieces => simp [same, pushFront]

/-- The pieces of a text have its characters, and none is the separator. -/
theorem mem_splitOn {separator : Char} {text piece : Text} (member : piece ∈ splitOn separator text) :
    separator ∉ piece ∧ piece ⊆ text := by
  induction text generalizing piece with
  | nil =>
      rw [splitOn, List.mem_singleton] at member
      simp [member]
  | cons c text ih =>
      rw [splitOn] at member
      split at member
      · rcases List.mem_cons.mp member with rfl | member
        · simp
        · exact ⟨(ih member).1, List.Subset.trans (ih member).2 (List.subset_cons_self c text)⟩
      · next other =>
          rcases mem_pushFront member with ⟨first, rfl | firstMem, rfl⟩ | member
          · simp [Ne.symm other]
          · obtain ⟨clear, subset⟩ := ih firstMem
            rw [List.mem_cons, not_or]
            exact ⟨⟨Ne.symm other, clear⟩, List.cons_subset_cons c subset⟩
          · exact ⟨(ih member).1, List.Subset.trans (ih member).2 (List.subset_cons_self c text)⟩

/-! ## Texts on one line -/

/-- A text without a line break. -/
def LineFree (text : Text) : Prop :=
  '\r' ∉ text ∧ '\n' ∉ text

instance (text : Text) : Decidable (LineFree text) :=
  inferInstanceAs (Decidable (_ ∧ _))

theorem LineFree.mono {text part : Text} (free : LineFree text) (subset : part ⊆ text) :
    LineFree part :=
  ⟨fun member => free.1 (subset member), fun member => free.2 (subset member)⟩

@[simp] theorem lineFree_nil : LineFree [] := by simp [LineFree]

@[simp] theorem lineFree_cons {c : Char} {text : Text} :
    LineFree (c :: text) ↔ (c ≠ '\r' ∧ c ≠ '\n') ∧ LineFree text := by
  simp only [LineFree, List.mem_cons, not_or]
  constructor
  · rintro ⟨⟨noReturn, rest⟩, noFeed, rest'⟩
    exact ⟨⟨Ne.symm noReturn, Ne.symm noFeed⟩, rest, rest'⟩
  · rintro ⟨⟨noReturn, noFeed⟩, rest, rest'⟩
    exact ⟨⟨Ne.symm noReturn, rest⟩, Ne.symm noFeed, rest'⟩

@[simp] theorem lineFree_append {first second : Text} :
    LineFree (first ++ second) ↔ LineFree first ∧ LineFree second := by
  induction first with
  | nil => simp
  | cons c first ih => simp [ih, and_assoc]

theorem lineFree_replicate (count : Nat) : LineFree (List.replicate count ' ') := by
  constructor
  all_goals
    intro member
    have equal := List.eq_of_mem_replicate member
    simp at equal

theorem lineFree_intercalate {separator : Text} {pieces : List Text}
    (separatorFree : LineFree separator) (free : ∀ piece ∈ pieces, LineFree piece) :
    LineFree (List.intercalate separator pieces) := by
  constructor
  · intro member
    rcases mem_intercalate member with between | ⟨piece, pieceMem, inside⟩
    · exact separatorFree.1 between
    · exact (free piece pieceMem).1 inside
  · intro member
    rcases mem_intercalate member with between | ⟨piece, pieceMem, inside⟩
    · exact separatorFree.2 between
    · exact (free piece pieceMem).2 inside

/-- A text that is not on one line goes up to its first line break. -/
theorem exists_break {text : Text} (broken : ¬LineFree text) :
    ∃ before mark after, text = before ++ mark :: after ∧ LineFree before ∧
      (mark = '\r' ∨ mark = '\n') := by
  induction text with
  | nil => exact (broken lineFree_nil).elim
  | cons c text ih =>
      by_cases breaks : c = '\r' ∨ c = '\n'
      · exact ⟨[], c, text, rfl, lineFree_nil, breaks⟩
      · rw [not_or] at breaks
        rw [lineFree_cons, not_and] at broken
        obtain ⟨before, mark, after, rfl, free, isMark⟩ := ih (broken breaks)
        exact ⟨c :: before, mark, after, rfl, lineFree_cons.mpr ⟨breaks, free⟩, isMark⟩

end SchemaNotation.Text
