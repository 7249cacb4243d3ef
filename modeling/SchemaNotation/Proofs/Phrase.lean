import SchemaNotation.Proofs.Mention

/-!
# Phrases

A phrase is a sequence of keywords, and a text spells it when it has these words in
any case with blanks between them.
-/

namespace SchemaNotation.Text

/-- A text that consists of the keywords of a phrase, with blanks between them. -/
inductive Spells : List Text → Text → Prop where
  | last {keyword word : Text} : fold word = fold keyword → Spells [keyword] word
  | more {keyword word blanks text : Text} {phrase : List Text} :
      fold word = fold keyword → blanks ≠ [] → Blank blanks → Spells phrase text →
      Spells (keyword :: phrase) (word ++ (blanks ++ text))

theorem Spells.ne_nil {phrase : List Text} {text : Text} (spells : Spells phrase text) :
    phrase ≠ [] := by
  cases spells <;> simp

theorem afterPhrase?_cons {keyword : Text} {phrase : List Text} (filled : phrase ≠ [])
    (text : Text) :
    afterPhrase? (keyword :: phrase) text =
      (afterKeyword? keyword text).bind fun rest => (blanks? rest).bind (afterPhrase? phrase) := by
  cases phrase with
  | nil => exact (filled rfl).elim
  | cons next phrase => rfl

/-- A phrase that was read is spelled in front of what follows it. -/
theorem spells_of_afterPhrase? {phrase : List Text} (filled : phrase ≠ []) {text rest : Text}
    (found : afterPhrase? phrase text = some rest) :
    ∃ spelled, text = spelled ++ rest ∧ Spells phrase spelled := by
  induction phrase generalizing text with
  | nil => exact (filled rfl).elim
  | cons keyword phrase ih =>
      by_cases last : phrase = []
      · rw [last] at found ⊢
        obtain ⟨word, rfl, same⟩ := afterKeyword?_eq_some_iff.mp found
        exact ⟨word, rfl, Spells.last same⟩
      · rw [afterPhrase?_cons last] at found
        obtain ⟨behind, first, further⟩ := Option.bind_eq_some_iff.mp found
        obtain ⟨trimmed, skipped, others⟩ := Option.bind_eq_some_iff.mp further
        obtain ⟨word, rfl, same⟩ := afterKeyword?_eq_some_iff.mp first
        obtain ⟨spelled, rfl, spells⟩ := ih last others
        cases behind with
        | nil => cases skipped
        | cons c behind =>
            rw [blanks?] at skipped
            split at skipped
            · next blank =>
                obtain ⟨blanks, isBlank, shape⟩ := trimLeft_split behind
                rw [Option.some.inj skipped] at shape
                refine ⟨word ++ ((c :: blanks) ++ spelled), ?_, Spells.more same (by simp) ?_ spells⟩
                · rw [shape]
                  simp
                · exact List.forall_mem_cons.mpr ⟨blank, isBlank⟩
            · cases skipped

variable {phrase : List Text} {text : Text}

theorem fold_ne_nil {keyword word : Text} (isKeyword : IsKeyword keyword)
    (same : fold word = fold keyword) : word ≠ [] := by
  rintro rfl
  exact isKeyword.1 (List.map_eq_nil_iff.mp same.symm)

/-- A spelled phrase starts with a word character. -/
theorem Spells.starts (keywords : ∀ keyword ∈ phrase, IsKeyword keyword)
    (spells : Spells phrase text) : ∃ c rest, text = c :: rest ∧ isWord c = true := by
  have first : ∀ {keyword word : Text}, IsKeyword keyword → fold word = fold keyword →
      ∃ c rest, word = c :: rest ∧ isWord c = true := by
    intro keyword word isKeyword same
    cases word with
    | nil => exact (fold_ne_nil isKeyword same rfl).elim
    | cons c rest => exact ⟨c, rest, rfl, isWord_of_fold_eq isKeyword same c (by simp)⟩
  cases spells with
  | last same => exact first (keywords _ (by simp)) same
  | more same _ _ _ =>
      obtain ⟨c, rest, rfl, word⟩ := first (keywords _ (by simp)) same
      exact ⟨c, _, rfl, word⟩

theorem Spells.stops (keywords : ∀ keyword ∈ phrase, IsKeyword keyword)
    (spells : Spells phrase text) (rest : Text) : Stops isBlank (text ++ rest) := by
  obtain ⟨c, tail, rfl, word⟩ := spells.starts keywords
  exact stops_cons.mpr (isBlank_of_isWord word)

/-- A phrase spelled in a text is read, and what follows it is left. -/
theorem Spells.afterPhrase? (keywords : ∀ keyword ∈ phrase, IsKeyword keyword)
    (spells : Spells phrase text) (rest : Text) :
    Text.afterPhrase? phrase (text ++ rest) = some rest := by
  induction spells with
  | last same => exact afterKeyword?_eq_some_iff.mpr ⟨_, rfl, same⟩
  | @more keyword word blanks text phrase same filled blank spells ih =>
      have others : ∀ keyword ∈ phrase, IsKeyword keyword :=
        fun other member => keywords other (List.mem_cons_of_mem keyword member)
      have first : afterKeyword? keyword (word ++ (blanks ++ text) ++ rest) =
          some (blanks ++ (text ++ rest)) :=
        afterKeyword?_eq_some_iff.mpr ⟨word, by simp, same⟩
      rw [afterPhrase?_cons spells.ne_nil, first, Option.bind_some,
        blanks?_append filled blank (spells.stops others rest), Option.bind_some]
      exact ih others

/-- What a phrase takes up whole, it takes up in front of anything. -/
theorem afterPhrase?_append (keywords : ∀ keyword ∈ phrase, IsKeyword keyword)
    (filled : phrase ≠ []) (whole : Text.afterPhrase? phrase text = some []) (rest : Text) :
    Text.afterPhrase? phrase (text ++ rest) = some rest := by
  obtain ⟨spelled, shape, spells⟩ := spells_of_afterPhrase? filled whole
  rw [List.append_nil] at shape
  rw [shape]
  exact spells.afterPhrase? keywords rest

/-- A spelled phrase has no other characters than those of words and blanks. -/
theorem Spells.mem (keywords : ∀ keyword ∈ phrase, IsKeyword keyword)
    (spells : Spells phrase text) : ∀ c ∈ text, isWord c = true ∨ isBlank c = true := by
  induction spells with
  | last same => exact fun c member => Or.inl (isWord_of_fold_eq (keywords _ (by simp)) same c member)
  | @more keyword word blanks text phrase same _ blank _ ih =>
      intro c member
      rw [List.mem_append, List.mem_append] at member
      rcases member with inWord | inBlanks | later
      · exact Or.inl (isWord_of_fold_eq (keywords keyword (by simp)) same c inWord)
      · exact Or.inr (blank c inBlanks)
      · exact ih (fun other member => keywords other (List.mem_cons_of_mem keyword member)) c later

theorem Spells.trimmed (keywords : ∀ keyword ∈ phrase, IsKeyword keyword)
    (spells : Spells phrase text) : Trimmed text := by
  refine ⟨by simpa using spells.stops keywords [], ?_⟩
  induction spells with
  | last same =>
      intro c found
      exact isBlank_of_isWord (isWord_of_fold_eq (keywords _ (by simp)) same c
        (List.mem_of_getLast? found))
  | @more keyword word blanks text phrase _ _ _ spells ih =>
      have others : ∀ keyword ∈ phrase, IsKeyword keyword :=
        fun other member => keywords other (List.mem_cons_of_mem keyword member)
      obtain ⟨d, tail, shape, _⟩ := spells.starts others
      have filled : text ≠ [] := by simp [shape]
      intro c found
      rw [List.getLast?_append_of_ne_nil _ (by simp [filled]),
        List.getLast?_append_of_ne_nil _ filled] at found
      exact ih others c found

/-- What stands in front of a phrase becomes part of its first word. -/
theorem Spells.joined {lead word keyword : Text} (same : fold word = fold lead)
    (spells : Spells (keyword :: phrase) text) :
    Spells ((lead ++ keyword) :: phrase) (word ++ text) := by
  have joins : ∀ {first : Text}, fold first = fold keyword →
      fold (word ++ first) = fold (lead ++ keyword) := by
    intro first sameFirst
    unfold fold at same sameFirst ⊢
    rw [List.map_append, List.map_append, same, sameFirst]
  cases spells with
  | last sameFirst => exact Spells.last (joins sameFirst)
  | more sameFirst filled blank further =>
      rw [← List.append_assoc]
      exact Spells.more (joins sameFirst) filled blank further

/-! ## Words of a phrase -/

/-- A word that is not the keyword lacks it. -/
theorem lacks_word {keyword word : Text} (isKeyword : IsKeyword keyword)
    (inside : ∀ c ∈ word, isWord c = true) (other : fold word ≠ fold keyword) :
    Lacks keyword word := by
  have keyed := keyed_afterWholePhrase? isKeyword []
  have stops := stops_nil isWord
  have nothing := keyed.firstMatch_word inside stops (keyed.none_of_other inside other stops none)
  rw [List.append_nil] at nothing
  exact lacks_iff.mpr nothing

/-- Characters that separate words have no word. -/
theorem lacks_separators_append {keyword gap : Text} (isKeyword : IsKeyword keyword)
    (separates : ∀ c ∈ gap, isWord c = false) {text : Text} :
    Lacks keyword (gap ++ text) ↔ Lacks keyword text := by
  induction gap with
  | nil => exact Iff.rfl
  | cons c gap ih =>
      rw [List.cons_append, lacks_separator isKeyword (separates c (by simp))]
      exact ih fun d member => separates d (List.mem_cons_of_mem c member)

/-- A phrase has the words of the phrase only, but its last word may go on in the text
behind it. -/
theorem Spells.lacks_continued {key rest : Text} (isKey : IsKeyword key)
    (keywords : ∀ keyword ∈ phrase, IsKeyword keyword)
    (others : ∀ keyword ∈ phrase.dropLast, fold keyword ≠ fold key)
    (last : ∀ keyword ∈ phrase.getLast?, ∀ word, fold word = fold keyword →
      Lacks key (word ++ rest))
    (spells : Spells phrase text) : Lacks key (text ++ rest) := by
  induction spells with
  | @last keyword word same => exact last keyword rfl word same
  | @more keyword word blanks text phrase same filled blank spells ih =>
      rw [List.dropLast_cons_of_ne_nil spells.ne_nil] at others
      have end_eq : (keyword :: phrase).getLast? = phrase.getLast? :=
        List.getLast?_append_of_ne_nil [keyword] spells.ne_nil
      rw [end_eq] at last
      have inside := isWord_of_fold_eq (keywords keyword (by simp)) same
      have first := lacks_word isKey inside (same ▸ others keyword (by simp))
      have further := ih (fun other member => keywords other (List.mem_cons_of_mem keyword member))
        (fun other member => others other (List.mem_cons_of_mem keyword member)) last
      cases blanks with
      | nil => exact (filled rfl).elim
      | cons c blanks =>
          have separates : ∀ d ∈ blanks, isWord d = false :=
            fun d member => isWord_of_isBlank (blank d (List.mem_cons_of_mem c member))
          rw [List.append_assoc, List.append_assoc, List.cons_append,
            lacks_append isKey (isWord_of_isBlank (blank c (by simp))),
            lacks_separators_append isKey separates]
          exact ⟨first, further⟩

/-- A spelled phrase has the words of the phrase only. -/
theorem Spells.lacks {key : Text} (isKey : IsKeyword key)
    (keywords : ∀ keyword ∈ phrase, IsKeyword keyword)
    (others : ∀ keyword ∈ phrase, fold keyword ≠ fold key) (spells : Spells phrase text) :
    Lacks key text := by
  have ended : ∀ keyword ∈ phrase.getLast?, ∀ word, fold word = fold keyword →
      Lacks key (word ++ []) := by
    intro keyword final word same
    have member : keyword ∈ phrase := List.mem_of_getLast? final
    rw [List.append_nil]
    exact lacks_word isKey (isWord_of_fold_eq (keywords keyword member) same)
      (same ▸ others keyword member)
  have whole := spells.lacks_continued isKey keywords
    (fun keyword member => others keyword (List.dropLast_subset phrase member)) ended
  rwa [List.append_nil] at whole

/-- A scan keyed to the last word of a phrase passes over the phrase when it finds
nothing behind that word. -/
theorem Spells.passes {α : Type} {read : Option Char → Text → Option α} {key : Text}
    (keyed : Keyed [key] read) (keywords : ∀ keyword ∈ phrase, IsKeyword keyword)
    (others : ∀ keyword ∈ phrase.dropLast, fold keyword ≠ fold key)
    (stuck : ∀ previous word rest, fold word = fold key → Ends rest →
      read previous (word ++ rest) = none)
    (spells : Spells phrase text) : Passes read text := by
  induction spells with
  | @last keyword word same =>
      intro previous rest ends
      have inside := isWord_of_fold_eq (keywords keyword (by simp)) same
      have stops : Stops isWord rest := ends.stops (by decide)
      refine keyed.firstMatch_word inside stops ?_
      by_cases isKey : fold word = fold key
      · exact stuck previous word rest isKey ends
      · exact keyed.none_of_other inside isKey stops previous
  | @more keyword word blanks text phrase same filled blank spells ih =>
      intro previous rest ends
      have inside := isWord_of_fold_eq (keywords keyword (by simp)) same
      rw [List.dropLast_cons_of_ne_nil spells.ne_nil, List.forall_mem_cons, ← same] at others
      have further := ih (List.forall_mem_cons.mp keywords).2 others.2
      cases blanks with
      | nil => exact (filled rfl).elim
      | cons c blanks =>
          have stops : Stops isWord (c :: (blanks ++ (text ++ rest))) :=
            stops_cons.mpr (isWord_of_isBlank (blank c (by simp)))
          have shape : word ++ (c :: blanks ++ text) ++ rest =
              word ++ c :: (blanks ++ (text ++ rest)) := by
            simp
          rw [shape, keyed.firstMatch_word inside stops
            (keyed.none_of_other inside others.1 stops previous), resume]
          exact keyed.firstMatch_blanks (List.forall_mem_cons.mp blank).2
            (fun previous => further previous rest ends) (some c)

/-! ## Alternative phrases -/

/-- Two phrases that cannot both be spelled at one place: the first words in which they
differ start with different letters. -/
def diverge : List Text → List Text → Bool
  | keyword :: phrase, other :: others =>
      if keyword = other then diverge phrase others
      else (fold keyword).head? != (fold other).head?
  | _, _ => false

/-- A keyword is not found where a word stands that starts with another letter. -/
theorem afterKeyword?_eq_none_of_head {keyword other word : Text} (isKeyword : IsKeyword keyword)
    (isOther : IsKeyword other) (apart : (fold keyword).head? ≠ (fold other).head?)
    (same : fold word = fold keyword) (rest : Text) : afterKeyword? other (word ++ rest) = none := by
  cases success : afterKeyword? other (word ++ rest) with
  | none => rfl
  | some behind =>
      obtain ⟨found, shape, foundSame⟩ := afterKeyword?_eq_some_iff.mp success
      have heads : word.head? = found.head? := by
        have whole := congrArg List.head? shape
        rwa [List.head?_append_of_ne_nil _ (fold_ne_nil isKeyword same),
          List.head?_append_of_ne_nil _ (fold_ne_nil isOther foundSame)] at whole
      apply (apart _).elim
      rw [← same, ← foundSame, fold, fold, List.head?_map, List.head?_map, heads]

theorem afterPhrase?_eq_none {keyword : Text} {text : Text}
    (missing : afterKeyword? keyword text = none) (phrase : List Text) :
    Text.afterPhrase? (keyword :: phrase) text = none := by
  by_cases last : phrase = []
  · rw [last]
    exact missing
  · rw [afterPhrase?_cons last, missing, Option.bind_none]

/-- Where one phrase is spelled, a phrase that diverges from it is not found. -/
theorem afterPhrase?_eq_none_of_diverge {others : List Text}
    (keywords : ∀ keyword ∈ phrase, IsKeyword keyword)
    (otherKeywords : ∀ keyword ∈ others, IsKeyword keyword) (apart : diverge phrase others = true)
    (spells : Spells phrase text) (rest : Text) : Text.afterPhrase? others (text ++ rest) = none := by
  induction spells generalizing others with
  | @last keyword word same =>
      cases others with
      | nil => cases apart
      | cons other others =>
          rw [diverge] at apart
          split at apart
          · cases apart
          · exact afterPhrase?_eq_none (afterKeyword?_eq_none_of_head (keywords keyword (by simp))
              (otherKeywords other (by simp)) (bne_iff_ne.mp apart) same rest) others
  | @more keyword word blanks text phrase same filled blank spells ih =>
      cases others with
      | nil => cases apart
      | cons other others =>
          rw [diverge] at apart
          split at apart
          · next equal =>
              have laterKeywords : ∀ keyword ∈ phrase, IsKeyword keyword :=
                fun later member => keywords later (List.mem_cons_of_mem keyword member)
              have further : others ≠ [] := by
                rintro rfl
                cases phrase <;> cases apart
              have first : afterKeyword? other (word ++ (blanks ++ text) ++ rest) =
                  some (blanks ++ (text ++ rest)) :=
                afterKeyword?_eq_some_iff.mpr ⟨word, by simp, equal ▸ same⟩
              rw [afterPhrase?_cons further, first, Option.bind_some,
                blanks?_append filled blank (spells.stops laterKeywords rest), Option.bind_some]
              exact ih laterKeywords
                (fun later member => otherKeywords later (List.mem_cons_of_mem other member)) apart
          · rw [List.append_assoc]
            exact afterPhrase?_eq_none (afterKeyword?_eq_none_of_head (keywords keyword (by simp))
              (otherKeywords other (by simp)) (bne_iff_ne.mp apart) same _) others

end SchemaNotation.Text
