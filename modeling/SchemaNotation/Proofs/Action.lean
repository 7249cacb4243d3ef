import SchemaNotation.Constraint.Reader
import SchemaNotation.Proofs.Phrase

/-!
# Actions read back

A reference may state actions, one after the other with a separator between each two.
A sequence of actions is read as far as it goes, and what stands behind it is left alone
as long as it cannot be taken for one more action.
-/

namespace SchemaNotation.ForeignKey

open Text

/-! ## Single actions -/

theorem isKeyword_actions : ∀ phrase ∈ actionPhrases, ∀ keyword ∈ phrase, IsKeyword keyword := by
  decide

theorem diverge_actions : ∀ phrase ∈ actionPhrases, ∀ other ∈ actionPhrases,
    phrase = other ∨ diverge phrase other = true := by
  decide

theorem eq_cons_of_mem_actions : ∀ phrase ∈ actionPhrases, phrase = "ON".toList :: phrase.tail := by
  decide

theorem spells_of_afterAction? {text rest : Text} (found : afterAction? text = some rest) :
    ∃ phrase ∈ actionPhrases, ∃ action, text = action ++ rest ∧ Spells phrase action := by
  obtain ⟨phrase, member, spelled⟩ := List.exists_of_findSome?_eq_some found
  have filled : phrase ≠ [] := by
    rw [eq_cons_of_mem_actions phrase member]
    simp
  exact ⟨phrase, member, spells_of_afterPhrase? filled spelled⟩

/-- An action is found in front of anything, because no other action fits there. -/
theorem afterAction?_of_spells {phrase : List Text} (member : phrase ∈ actionPhrases) {action : Text}
    (spells : Spells phrase action) (rest : Text) : afterAction? (action ++ rest) = some rest := by
  have keywords := isKeyword_actions phrase member
  have here : afterPhrase? phrase (action ++ rest) = some rest := spells.afterPhrase? keywords rest
  cases found : afterAction? (action ++ rest) with
  | none =>
      have missing := List.findSome?_eq_none_iff.mp found phrase member
      rw [here] at missing
      cases missing
  | some behind =>
      obtain ⟨other, otherMem, success⟩ := List.exists_of_findSome?_eq_some found
      rcases diverge_actions phrase member other otherMem with equal | apart
      · rw [← equal, here] at success
        exact success.symm
      · rw [afterPhrase?_eq_none_of_diverge keywords (isKeyword_actions other otherMem) apart
          spells rest] at success
        cases success

/-- Text that starts with another letter than the first one of an action. -/
theorem afterAction?_eq_none {c : Char} (other : foldLetter c ≠ 'o') (rest : Text) :
    afterAction? (c :: rest) = none := by
  apply List.findSome?_eq_none_iff.mpr
  intro phrase member
  have missing : afterKeyword? "ON".toList (c :: rest) = none := by
    apply if_neg
    intro same
    exact other (beq_iff_eq.mp same).symm
  rw [eq_cons_of_mem_actions phrase member]
  exact afterPhrase?_eq_none missing phrase.tail

/-- A text that is one action. -/
def IsAction (action : Text) : Prop :=
  afterAction? action = some []

instance (action : Text) : Decidable (IsAction action) :=
  inferInstanceAs (Decidable (_ = _))

theorem IsAction.spells {action : Text} (isAction : IsAction action) :
    ∃ phrase ∈ actionPhrases, Spells phrase action := by
  obtain ⟨phrase, member, spelled, shape, spells⟩ := spells_of_afterAction? isAction
  rw [List.append_nil] at shape
  exact ⟨phrase, member, shape ▸ spells⟩

/-! ## Sequences of actions -/

/-- What can stand between two actions: blanks with at most one comma among them. -/
def IsSeparator (gap : Text) : Prop :=
  Blank gap ∨ ∃ before after, gap = before ++ ',' :: after ∧ Blank before ∧ Blank after

/-- A text that is a sequence of actions, one or more with a separator between each two. -/
inductive Actions : Text → Prop where
  | one {phrase : List Text} {action : Text} :
      phrase ∈ actionPhrases → Spells phrase action → Actions action
  | more {phrase : List Text} {action gap further : Text} :
      phrase ∈ actionPhrases → Spells phrase action → IsSeparator gap → Actions further →
      Actions (action ++ (gap ++ further))

theorem IsAction.actions {action : Text} (isAction : IsAction action) : Actions action := by
  obtain ⟨phrase, member, spells⟩ := isAction.spells
  exact Actions.one member spells

theorem IsSeparator.isWord_eq_false {gap : Text} (separates : IsSeparator gap) :
    ∀ c ∈ gap, isWord c = false := by
  intro c member
  rcases separates with blank | ⟨before, after, rfl, beforeBlank, afterBlank⟩
  · exact isWord_of_isBlank (blank c member)
  · rcases List.mem_append.mp member with inBefore | behind
    · exact isWord_of_isBlank (beforeBlank c inBefore)
    · rcases List.mem_cons.mp behind with rfl | inAfter
      · decide
      · exact isWord_of_isBlank (afterBlank c inAfter)

theorem isSeparator_comma : IsSeparator ", ".toList :=
  Or.inr ⟨[], [' '], rfl, List.forall_mem_nil _, blank_replicate 1⟩

variable {action : Text}

theorem Actions.starts (actions : Actions action) :
    ∃ c rest, action = c :: rest ∧ isWord c = true := by
  cases actions with
  | one member spells => exact spells.starts (isKeyword_actions _ member)
  | more member spells _ _ =>
      obtain ⟨c, rest, rfl, word⟩ := spells.starts (isKeyword_actions _ member)
      exact ⟨c, _, rfl, word⟩

theorem Actions.ne_nil (actions : Actions action) : action ≠ [] := by
  obtain ⟨c, rest, rfl, _⟩ := actions.starts
  exact List.cons_ne_nil c rest

theorem Actions.trimmed (actions : Actions action) : Trimmed action := by
  induction actions with
  | one member spells => exact spells.trimmed (isKeyword_actions _ member)
  | @more phrase action gap further member spells _ actions ih =>
      have keywords := isKeyword_actions phrase member
      obtain ⟨c, rest, shape, _⟩ := spells.starts keywords
      rw [← List.append_assoc]
      apply trimmed_append (by simp [shape]) _ actions.ne_nil ih
      exact spells.stops keywords gap

/-- A separator in front of a word is skipped. -/
theorem afterSeparator_append {gap text : Text} (separates : IsSeparator gap)
    (starts : ∃ c rest, text = c :: rest ∧ isWord c = true) :
    afterSeparator (gap ++ text) = text := by
  obtain ⟨c, rest, rfl, word⟩ := starts
  have stops : Stops isBlank (c :: rest) := stops_cons.mpr (isBlank_of_isWord word)
  rcases separates with blank | ⟨before, after, rfl, beforeBlank, afterBlank⟩
  · have skipped : trimLeft (gap ++ c :: rest) = c :: rest :=
      (trimLeft_blank_append blank (c :: rest)).trans (trimLeft_of_stops stops)
    rw [afterSeparator, skipped]
    split
    · next equal =>
        rw [(List.cons.inj equal).1] at word
        exact absurd word (by decide)
    · rfl
  · have shape : before ++ ',' :: after ++ c :: rest = before ++ ',' :: (after ++ c :: rest) := by
      simp
    have skipped : trimLeft (before ++ ',' :: (after ++ c :: rest)) = ',' :: (after ++ c :: rest) :=
      (trimLeft_blank_append beforeBlank _).trans (trimLeft_of_stops (stops_cons.mpr (by decide)))
    rw [shape, afterSeparator, skipped]
    exact (trimLeft_blank_append afterBlank (c :: rest)).trans (trimLeft_of_stops stops)

/-- What is skipped in front of an action is a separator. -/
theorem afterSeparator_split (text : Text) :
    ∃ gap, IsSeparator gap ∧ text = gap ++ afterSeparator text := by
  obtain ⟨before, beforeBlank, shape⟩ := trimLeft_split text
  rw [afterSeparator]
  split
  · next rest comma =>
      obtain ⟨after, afterBlank, restShape⟩ := trimLeft_split rest
      refine ⟨before ++ ',' :: after, Or.inr ⟨before, after, rfl, beforeBlank, afterBlank⟩, ?_⟩
      rw [List.append_assoc, List.cons_append, ← restShape, ← comma]
      exact shape
  · exact ⟨before, Or.inl beforeBlank, shape⟩

theorem afterActions_of_none {text : Text} (ended : afterAction? (afterSeparator text) = none) :
    afterActions text = text := by
  rw [afterActions]
  split
  · rfl
  · next found =>
      rw [ended] at found
      cases found

theorem afterActions_of_some {text rest : Text}
    (found : afterAction? (afterSeparator text) = some rest) :
    afterActions text = afterActions rest := by
  rw [afterActions]
  split
  · next missing =>
      rw [found] at missing
      cases missing
  · next behind success =>
      rw [found] at success
      rw [Option.some.inj success]

section Ended

variable {rest : Text} (ended : afterAction? (afterSeparator rest) = none)

include ended

/-- The first action of a sequence is read, and the others are read behind it. -/
theorem Actions.exists_behind (actions : Actions action) :
    ∃ behind, afterAction? (action ++ rest) = some behind ∧ afterActions behind = rest := by
  induction actions with
  | one member spells =>
      exact ⟨rest, afterAction?_of_spells member spells rest, afterActions_of_none ended⟩
  | @more phrase action gap further member spells separates actions ih =>
      obtain ⟨behind, first, others⟩ := ih
      obtain ⟨c, tail, shape, word⟩ := actions.starts
      have skipped : afterSeparator (gap ++ (further ++ rest)) = further ++ rest :=
        afterSeparator_append separates ⟨c, tail ++ rest, by rw [shape]; rfl, word⟩
      refine ⟨gap ++ (further ++ rest), ?_, ?_⟩
      · rw [List.append_assoc, List.append_assoc]
        exact afterAction?_of_spells member spells _
      · rw [← skipped] at first
        rw [afterActions_of_some first, others]

/-- A sequence of actions is read back behind a comma. -/
theorem Actions.readAction? (actions : Actions action) :
    ForeignKey.readAction? (", ".toList ++ (action ++ rest)) = some action := by
  obtain ⟨c, tail, shape, word⟩ := actions.starts
  have skipped : afterSeparator (", ".toList ++ (action ++ rest)) = action ++ rest :=
    afterSeparator_append isSeparator_comma ⟨c, tail ++ rest, by rw [shape]; rfl, word⟩
  obtain ⟨behind, first, others⟩ := actions.exists_behind ended
  rw [ForeignKey.readAction?, skipped, first, Option.map_some, others]
  simp [actions.trimmed.trim_eq]

end Ended

/-- An action is the first of a sequence when what stands behind it is read to its end. -/
theorem actions_of_afterActions {phrase : List Text} {first rest : Text}
    (member : phrase ∈ actionPhrases) (spells : Spells phrase first)
    (ended : afterActions rest = []) : Actions (first ++ rest) := by
  induction rest using afterActions.induct generalizing phrase first with
  | case1 rest missing =>
      rw [afterActions_of_none missing] at ended
      rw [ended, List.append_nil]
      exact Actions.one member spells
  | case2 rest behind found _ ih =>
      rw [afterActions_of_some found] at ended
      obtain ⟨next, nextMem, further, shape, nextSpells⟩ := spells_of_afterAction? found
      obtain ⟨gap, separates, split⟩ := afterSeparator_split rest
      rw [split, shape]
      exact Actions.more member spells separates (ih nextMem nextSpells ended)

/-- The sequences of actions are the texts that the reader takes up whole. -/
theorem actions_iff : Actions action ↔ (afterAction? action).map afterActions = some [] := by
  constructor
  · intro actions
    have ended : afterAction? (afterSeparator []) = none := by
      decide
    obtain ⟨behind, first, others⟩ := actions.exists_behind ended
    rw [List.append_nil] at first
    rw [first, Option.map_some, others]
  · intro whole
    obtain ⟨rest, found, ended⟩ := Option.map_eq_some_iff.mp whole
    obtain ⟨phrase, member, first, shape, spells⟩ := spells_of_afterAction? found
    rw [shape]
    exact actions_of_afterActions member spells ended

instance (action : Text) : Decidable (Actions action) :=
  decidable_of_iff _ actions_iff.symm

section Follows

-- What can follow a reference: nothing, or a comma and a segment that is no action.
variable {starts rest : Text} (clear : ∀ c ∈ starts, isBlank c = false ∧ foldLetter c ≠ 'o')
  (follows : Follows starts rest)

include clear follows

theorem afterAction?_of_follows : afterAction? (afterSeparator rest) = none := by
  rcases follows with rfl | ⟨c, more, rfl, member⟩
  · decide
  · obtain ⟨notBlank, other⟩ := clear c member
    have separated : afterSeparator (',' :: ' ' :: c :: more) = c :: more := by
      have comma : trimLeft (',' :: ' ' :: c :: more) = ',' :: ' ' :: c :: more :=
        trimLeft_of_stops (stops_cons.mpr (by decide))
      rw [afterSeparator, comma]
      exact (trimLeft_blank_append (blank_replicate 1) (c :: more)).trans
        (trimLeft_of_stops (stops_cons.mpr notBlank))
    rw [separated]
    exact afterAction?_eq_none other more

theorem readAction?_of_follows : readAction? rest = none := by
  rw [readAction?, afterAction?_of_follows clear follows]
  rfl

end Follows

/-! ## Words of a sequence -/

/-- The words to which the first word of an action can be joined: none, or the last word of
the action in front of it. -/
def joints : List Text :=
  [] :: actionPhrases.filterMap List.getLast?

theorem isKeyword_joints : ∀ lead ∈ joints, IsKeyword (lead ++ "ON".toList) := by
  decide

theorem tail_ne_nil_of_mem_actions : ∀ phrase ∈ actionPhrases, phrase.tail ≠ [] := by
  decide

section Lacking

variable {key : Text} (isKey : IsKeyword key)
  (others : ∀ phrase ∈ actionPhrases, ∀ word ∈ phrase, fold word ≠ fold key)

include isKey others

theorem lacks_word_of_action {phrase : List Text} (member : phrase ∈ actionPhrases)
    {keyword word : Text} (inPhrase : keyword ∈ phrase) (same : fold word = fold keyword) :
    Lacks key word :=
  lacks_word isKey (isWord_of_fold_eq (isKeyword_actions phrase member keyword inPhrase) same)
    (same ▸ others phrase member keyword inPhrase)

variable (unjoined : ∀ lead ∈ joints, fold (lead ++ "ON".toList) ≠ fold key)

include unjoined

/-- An action has no other words than its own, also behind the last word of another action,
but its last word may go on in the text behind it. -/
theorem lacks_action_append {phrase : List Text} (member : phrase ∈ actionPhrases)
    (spells : Spells phrase action) {lead word rest : Text} (leadMem : lead ∈ joints)
    (same : fold word = fold lead)
    (last : ∀ final ∈ phrase.getLast?, ∀ word, fold word = fold final →
      Lacks key (word ++ rest)) :
    Lacks key (word ++ (action ++ rest)) := by
  have shape := eq_cons_of_mem_actions phrase member
  have filled := tail_ne_nil_of_mem_actions phrase member
  have ended : ∀ first : Text, (first :: phrase.tail).getLast? = phrase.tail.getLast? :=
    fun first => List.getLast?_append_of_ne_nil [first] filled
  have words : ∀ other ∈ (lead ++ "ON".toList) :: phrase.tail,
      IsKeyword other ∧ fold other ≠ fold key := by
    intro other otherMem
    rcases List.mem_cons.mp otherMem with rfl | inTail
    · exact ⟨isKeyword_joints lead leadMem, unjoined lead leadMem⟩
    · have inPhrase : other ∈ phrase := List.mem_of_mem_tail inTail
      exact ⟨isKeyword_actions phrase member other inPhrase, others phrase member other inPhrase⟩
  rw [shape] at spells
  rw [shape, ended] at last
  rw [← List.append_assoc]
  apply (spells.joined same).lacks_continued isKey
  · exact fun other otherMem => (words other otherMem).1
  · exact fun other otherMem => (words other (List.dropLast_subset _ otherMem)).2
  · rw [ended]
    exact last

/-- A sequence of actions has no other words than its actions, apart from those that arise
where nothing separates two actions. -/
theorem Actions.lacks (actions : Actions action) : Lacks key action := by
  -- The induction goes on inside the word that the action in front ends with.
  suffices behind : ∀ lead ∈ joints, ∀ word, fold word = fold lead → Lacks key (word ++ action) from
    behind [] (by simp [joints]) [] rfl
  induction actions with
  | @one phrase action member spells =>
      intro lead leadMem word same
      rw [← List.append_nil action]
      apply lacks_action_append isKey others unjoined member spells leadMem same
      intro final isLast last sameLast
      rw [List.append_nil]
      exact lacks_word_of_action isKey others member (List.mem_of_getLast? isLast) sameLast
  | @more phrase action gap further member spells separates _ ih =>
      intro lead leadMem word same
      apply lacks_action_append isKey others unjoined member spells leadMem same
      intro final isLast last sameLast
      have alone := lacks_word_of_action isKey others member (List.mem_of_getLast? isLast) sameLast
      have clear := separates.isWord_eq_false
      cases gap with
      | nil =>
          have joint : final ∈ joints :=
            List.mem_cons_of_mem [] (List.mem_filterMap.mpr ⟨phrase, member, isLast⟩)
          exact ih final joint last sameLast
      | cons c gap =>
          rw [List.cons_append, lacks_append isKey (clear c (by simp)),
            lacks_separators_append isKey fun d inGap => clear d (List.mem_cons_of_mem c inGap)]
          exact ⟨alone, ih [] (by simp [joints]) [] rfl⟩

end Lacking

end SchemaNotation.ForeignKey
