import SchemaNotation.Proofs.Text

/-!
# Words between blanks

The words of a text are what its blanks leave of it.  How many blanks there are, and which,
makes no difference to them, so a text in which blanks set words apart has just these words.
-/

namespace SchemaNotation.Text

variable {text : Text}

/-- The words are the pieces between the blanks, without the empty ones. -/
theorem words_eq (text : Text) :
    words text = (List.splitOnP isBlank text).filter fun piece => !piece.isEmpty := by
  have pieces : text.foldr
      (fun c pieces => if isBlank c then [] :: pieces else pushFront c pieces) [[]] =
      List.splitOnP isBlank text := by
    induction text with
    | nil => rfl
    | cons c text ih =>
        rw [List.foldr_cons, ih, List.splitOnP_cons_eq_if_modifyHead]
        cases found : List.splitOnP isBlank text with
        | nil => exact (List.splitOnP_ne_nil isBlank text found).elim
        | cons piece pieces => rfl
  exact congrArg (List.filter fun piece => !piece.isEmpty) pieces

/-- A blank separates the words before it from those behind it. -/
theorem words_append_cons {c : Char} (blank : isBlank c = true) (front back : Text) :
    (front ++ c :: back).words = front.words ++ back.words := by
  rw [words_eq, words_eq, words_eq, List.splitOnP_append_cons front back blank,
    List.filter_append]

@[simp] theorem words_nil : words [] = [] := rfl

theorem words_blank_append {blanks : Text} (blank : Blank blanks) (text : Text) :
    (blanks ++ text).words = text.words := by
  induction blanks with
  | nil => rfl
  | cons c blanks ih =>
      obtain ⟨first, rest⟩ := List.forall_mem_cons.mp blank
      have cut := words_append_cons first [] (blanks ++ text)
      rw [List.nil_append, words_nil, List.nil_append] at cut
      rw [List.cons_append, cut, ih rest]

theorem words_of_blank {blanks : Text} (blank : Blank blanks) : blanks.words = [] := by
  have clear := words_blank_append blank []
  rwa [List.append_nil] at clear

theorem words_append_blank {blanks : Text} (blank : Blank blanks) (text : Text) :
    (text ++ blanks).words = text.words := by
  cases blanks with
  | nil => rw [List.append_nil]
  | cons c blanks =>
      obtain ⟨first, rest⟩ := List.forall_mem_cons.mp blank
      rw [words_append_cons first, words_of_blank rest, List.append_nil]

theorem words_trimLeft (text : Text) : (trimLeft text).words = text.words := by
  obtain ⟨blanks, blank, equal⟩ := trimLeft_split text
  conv_rhs => rw [equal, words_blank_append blank]

theorem words_trimRight (text : Text) : (trimRight text).words = text.words := by
  obtain ⟨blanks, blank, equal⟩ := trimRight_split text
  conv_rhs => rw [equal, words_append_blank blank]

theorem words_trim (text : Text) : (trim text).words = text.words := by
  rw [trim, words_trimRight, words_trimLeft]

/-- A text without blanks. -/
def Solid (text : Text) : Prop :=
  ∀ c ∈ text, isBlank c = false

instance (text : Text) : Decidable (Solid text) :=
  List.decidableBAll _ text

theorem words_of_solid (filled : text ≠ []) (solid : Solid text) : text.words = [text] := by
  rw [words_eq, List.splitOnP_eq_singleton solid]
  simp [filled]

/-- What stands at the end of a text without blanks in it is the end of its last word. -/
theorem exists_words_append_solid (text : Text) {tail : Text} (filled : tail ≠ [])
    (solid : Solid tail) :
    ∃ others lead, (text ++ tail).words = others ++ [lead ++ tail] := by
  induction text using List.reverseRecOn generalizing tail with
  | nil => exact ⟨[], [], words_of_solid filled solid⟩
  | append_singleton text c ih =>
      rw [List.append_assoc, List.singleton_append]
      cases blank : isBlank c with
      | true =>
          refine ⟨words text, [], ?_⟩
          rw [words_append_cons blank, words_of_solid filled solid, List.nil_append]
      | false =>
          obtain ⟨others, lead, equal⟩ := ih (List.cons_ne_nil c tail)
            (List.forall_mem_cons.mpr ⟨blank, solid⟩)
          refine ⟨others, lead ++ [c], ?_⟩
          rw [equal, List.append_assoc, List.singleton_append]

/-! ## Words set apart -/

/-- The text consists of the words, which blanks set apart from each other.  There may be
blanks around them. -/
inductive Separated : List Text → Text → Prop where
  | none {blanks : Text} : Blank blanks → Separated [] blanks
  | more {blanks word rest : Text} {words : List Text} :
      Blank blanks → word ≠ [] → Solid word → Stops (fun c => !isBlank c) rest →
      Separated words rest → Separated (word :: words) (blanks ++ (word ++ rest))

variable {words : List Text}

/-- The words that are set apart in a text are its words. -/
theorem Separated.words_eq (separated : Separated words text) : text.words = words := by
  induction separated with
  | none blank => exact words_of_blank blank
  | @more blanks word rest words blank filled solid stops _ ih =>
      rw [words_blank_append blank]
      cases rest with
      | nil => rw [List.append_nil, words_of_solid filled solid, ← ih, words_nil]
      | cons c rest =>
          have isBlank : isBlank c = true := by simpa using stops_cons.mp stops
          have behind := words_append_cons isBlank [] rest
          rw [List.nil_append, words_nil, List.nil_append, ih] at behind
          rw [words_append_cons isBlank, words_of_solid filled solid, ← behind,
            List.singleton_append]

theorem Separated.cons {c : Char} (blank : isBlank c = true) (separated : Separated words text) :
    Separated words (c :: text) := by
  cases separated with
  | none blanks => exact .none (List.forall_mem_cons.mpr ⟨blank, blanks⟩)
  | more blanks filled solid stops rest =>
      exact .more (List.forall_mem_cons.mpr ⟨blank, blanks⟩) filled solid stops rest

/-- A word at the start of a text is set apart when a blank or nothing follows it. -/
theorem Separated.word {word : Text} (filled : word ≠ []) (solid : Solid word)
    (stops : Stops (fun c => !isBlank c) text) (separated : Separated words text) :
    Separated (word :: words) (word ++ text) := by
  have nothing : Blank [] := List.forall_mem_nil _
  exact .more nothing filled solid stops separated

/-- Every text has words that are set apart in it. -/
theorem exists_separated (text : Text) : ∃ words, Separated words text := by
  induction text with
  | nil => exact ⟨[], .none (List.forall_mem_nil _)⟩
  | cons c text ih =>
      obtain ⟨words, separated⟩ := ih
      cases first : isBlank c with
      | true => exact ⟨words, separated.cons first⟩
      | false =>
          have single : Solid [c] := by simpa [Solid] using first
          -- The character is a word of its own, unless a word starts right behind it.
          cases separated with
          | none blank =>
              have stops : Stops (fun c => !isBlank c) text := by
                intro d found
                simp [blank d (List.mem_of_head? found)]
              exact ⟨[[c]], .word (List.cons_ne_nil c []) single stops (.none blank)⟩
          | @more blanks word rest words blank filled solid stops separated =>
              cases blanks with
              | nil =>
                  have longer : Solid (c :: word) := List.forall_mem_cons.mpr ⟨first, solid⟩
                  exact ⟨(c :: word) :: words,
                    .word (List.cons_ne_nil c word) longer stops separated⟩
              | cons d blanks =>
                  have follows : Stops (fun c => !isBlank c) (d :: blanks ++ (word ++ rest)) :=
                    stops_cons.mpr (by simp [blank d])
                  exact ⟨[c] :: word :: words, .word (List.cons_ne_nil c []) single follows
                    (.more blank filled solid stops separated)⟩

/-- The words of a text are the ones that are set apart in it. -/
theorem words_eq_iff : text.words = words ↔ Separated words text := by
  constructor
  · rintro rfl
    obtain ⟨words, separated⟩ := exists_separated text
    rwa [separated.words_eq]
  · exact Separated.words_eq

instance (words : List Text) (text : Text) : Decidable (Separated words text) :=
  decidable_of_iff (text.words = words) words_eq_iff

/-- The text of separated words has no other characters than these and blanks. -/
theorem Separated.mem (separated : Separated words text) {c : Char} (member : c ∈ text) :
    isBlank c = true ∨ ∃ word ∈ words, c ∈ word := by
  induction separated with
  | none blank => exact Or.inl (blank c member)
  | @more blanks word rest words blank _ _ _ _ ih =>
      rw [List.mem_append, List.mem_append] at member
      rcases member with inBlanks | inWord | later
      · exact Or.inl (blank c inBlanks)
      · exact Or.inr ⟨word, by simp, inWord⟩
      · rcases ih later with isBlank | ⟨other, otherMem, inside⟩
        · exact Or.inl isBlank
        · exact Or.inr ⟨other, List.mem_cons_of_mem word otherMem, inside⟩

end SchemaNotation.Text
