import Mathlib.Data.List.Nodup
import SchemaNotation.Proofs.Constraint

/-!
# Constraints of a comment read back

A comment written for a column joins its constraints and annotations by commas.  Every
kind of constraint has its own reader, which is keyed to the word that opens the kind.
A reader passes over what states other kinds and reads back its own, so the constraints
come back whatever their order is.
-/

namespace SchemaNotation.Constraint

open Text

/-! ## Comments -/

/-- What a comment states: a constraint or an annotation. -/
inductive Fact where
  | constraint (stated : Constraint)
  | tag (stated : Tag)

/-- The words in which a comment states a fact. -/
def Fact.text : Fact → Text
  | .constraint stated => stated.describe
  | .tag stated => stated.render

/-- What a selection picks from a fact. -/
def Fact.pick? {α : Type} (pick : Constraint → Option α) : Fact → Option α
  | .constraint stated => pick stated
  | .tag _ => none

/-- The facts of a comment that states constraints and annotations. -/
def facts (constraints : List Constraint) (tags : List Tag) : List Fact :=
  constraints.map .constraint ++ tags.map .tag

/-- The comment that states constraints and annotations. -/
def comment (constraints : List Constraint) (tags : List Tag) : Text :=
  List.intercalate ", ".toList ((facts constraints tags).map Fact.text)

theorem map_text_facts (constraints : List Constraint) (tags : List Tag) :
    (facts constraints tags).map Fact.text =
      constraints.map describe ++ tags.map Tag.render := by
  simp [facts, Function.comp_def, Fact.text]

theorem comment_eq (constraints : List Constraint) (tags : List Tag) :
    comment constraints tags =
      List.intercalate ", ".toList (constraints.map describe ++ tags.map Tag.render) := by
  rw [comment, map_text_facts]

theorem findSome?_facts {α : Type} (pick : Constraint → Option α) (constraints : List Constraint)
    (tags : List Tag) :
    (facts constraints tags).findSome? (Fact.pick? pick) = constraints.findSome? pick := by
  have untagged : (tags.map Fact.tag).findSome? (Fact.pick? pick) = none := by
    rw [List.findSome?_eq_none_iff]
    intro fact member
    obtain ⟨tag, _, rfl⟩ := List.mem_map.mp member
    rfl
  rw [facts, List.findSome?_append, untagged, Option.or_none, List.findSome?_map]
  rfl

/-- The characters with which the statement of a fact starts. -/
def starts : Text :=
  "PAUIFDC@".toList

theorem clear_starts : ∀ c ∈ starts, isBlank c = false ∧ foldLetter c ≠ 'o' := by
  have clear : starts.all (fun c => !isBlank c && foldLetter c != 'o') = true := by
    decide
  intro c member
  simpa using List.all_eq_true.mp clear c member

theorem Fact.opens (fact : Fact) : ∃ c rest, fact.text = c :: rest ∧ c ∈ starts := by
  cases fact with
  | tag stated => exact ⟨'@', _, rfl, by decide⟩
  | constraint stated =>
      cases stated with
      | primaryKey => exact ⟨'P', _, rfl, by decide⟩
      | unique => exact ⟨'U', _, rfl, by decide⟩
      | index => exact ⟨'I', _, rfl, by decide⟩
      | autoIncrement => exact ⟨'A', _, rfl, by decide⟩
      | foreignKey target => exact ⟨'F', _, rfl, by decide⟩
      | defaultValue value => exact ⟨'D', _, rfl, by decide⟩
      | checkIn expression => exact ⟨'C', _, rfl, by decide⟩

/-! ## Readers of one kind -/

/-- A reader that finds in a comment what a selection picks from its constraints. -/
structure Finds {α : Type} (keys : List Text) (read : Option Char → Text → Option α)
    (pick : Constraint → Option α) : Prop where
  keyed : Keyed keys read
  known : ∀ key ∈ keys, key ∈ keywords
  passes : ∀ constraint : Constraint, constraint.Recognisable → pick constraint = none →
    Passes read constraint.describe
  finds : ∀ (constraint : Constraint) found, constraint.Recognisable → pick constraint = some found →
    ∀ previous rest, atWordStart previous = true → Follows starts rest →
      read previous (constraint.describe ++ rest) = some found

/-- Annotations whose names and values have no keyword. -/
def TagsNeutral (tags : List Tag) : Prop :=
  ∀ tag ∈ tags, Neutral tag.name ∧ Neutral tag.value

instance (tags : List Tag) : Decidable (TagsNeutral tags) :=
  inferInstanceAs (Decidable (∀ tag ∈ tags, _))

section Comment

variable {constraints : List Constraint} {tags : List Tag}
  (recognisable : ∀ constraint ∈ constraints, constraint.Recognisable) (neutral : TagsNeutral tags)

include recognisable neutral

theorem Finds.firstMatch_comment {α : Type} {keys : List Text}
    {read : Option Char → Text → Option α} {pick : Constraint → Option α}
    (finds : Finds keys read pick) :
    firstMatch read none (comment constraints tags) = constraints.findSome? pick := by
  have opens : ∀ fact ∈ facts constraints tags, ∃ c rest, fact.text = c :: rest ∧ c ∈ starts :=
    fun fact _ => fact.opens
  have passed : ∀ fact ∈ facts constraints tags, fact.pick? pick = none →
      Passes read fact.text := by
    intro fact member unpicked
    rcases List.mem_append.mp member with stated | tagged
    · obtain ⟨constraint, constraintMem, rfl⟩ := List.mem_map.mp stated
      exact finds.passes constraint (recognisable constraint constraintMem) unpicked
    · obtain ⟨tag, tagMem, rfl⟩ := List.mem_map.mp tagged
      apply finds.keyed.passes
      intro key keyMem
      have known := finds.known key keyMem
      exact lacks_tag known ((neutral tag tagMem).1 key known) ((neutral tag tagMem).2 key known)
  have found : ∀ fact ∈ facts constraints tags, ∀ value, fact.pick? pick = some value →
      ∀ previous rest, atWordStart previous = true → Follows starts rest →
        read previous (fact.text ++ rest) = some value := by
    intro fact member value picked
    rcases List.mem_append.mp member with stated | tagged
    · obtain ⟨constraint, constraintMem, rfl⟩ := List.mem_map.mp stated
      exact finds.finds constraint value (recognisable constraint constraintMem) picked
    · obtain ⟨tag, _, rfl⟩ := List.mem_map.mp tagged
      cases picked
  rw [← findSome?_facts pick constraints tags]
  exact finds.keyed.firstMatch_intercalate Fact.text (Fact.pick? pick) opens passed found rfl

end Comment

/-! ## Constraints without free text -/

/-- Whether a phrase starts right here. -/
def mentionHere (phrase : List Text) (previous : Option Char) (text : Text) : Option Unit :=
  (afterWholePhrase? phrase previous text).map fun _ => ()

theorem mentions_iff {phrase : List Text} {text : Text} :
    mentions phrase text = true ↔ firstMatch (mentionHere phrase) none text = some () := by
  have mapped : ∀ previous, firstMatch (mentionHere phrase) previous text =
      (firstMatch (afterWholePhrase? phrase) previous text).map fun _ => () := by
    induction text with
    | nil => exact fun previous => rfl
    | cons c text ih =>
        intro previous
        rw [firstMatch, firstMatch, mentionHere]
        cases afterWholePhrase? phrase previous (c :: text) with
        | none => exact ih (some c)
        | some rest => rfl
  rw [mapped, mentions]
  cases firstMatch (afterWholePhrase? phrase) none text <;> simp

theorem keyed_mentionHere {keyword : Text} (isKeyword : IsKeyword keyword) (phrase : List Text) :
    Keyed [keyword] (mentionHere (keyword :: phrase)) := by
  have keyed := keyed_afterWholePhrase? isKeyword phrase
  constructor
  · exact keyed.1
  · intro previous text found success
    obtain ⟨rest, here, _⟩ := Option.map_eq_some_iff.mp success
    exact keyed.2 previous text rest here

theorem eq_of_lead_eq {constraint other : Constraint} (isFixed : constraint ∈ fixed)
    (same : other.lead = constraint.lead) : other = constraint := by
  have ranks := rank_eq_of_lead_eq same
  simp only [fixed, List.mem_cons, List.not_mem_nil, or_false] at isFixed
  rcases isFixed with rfl | rfl | rfl | rfl
  all_goals
    cases other <;> first | rfl | cases ranks

theorem lead_ne_default : ∀ constraint ∈ fixed, "DEFAULT".toList ∉ [constraint.lead] := by
  decide

/-- A constraint without free text is found where its description stands. -/
theorem finds_fixed {constraint : Constraint} {others : List Text} (isFixed : constraint ∈ fixed)
    (words : ∀ word ∈ constraint.lead :: others, IsKeyword word)
    (said : afterPhrase? (constraint.lead :: others) constraint.describe = some []) :
    Finds [constraint.lead] (mentionHere (constraint.lead :: others))
      (fun other => if other = constraint then some () else none) := by
  have keyed := keyed_mentionHere (isKeyword_of_mem constraint.lead (lead_mem constraint)) others
  have known : ∀ key ∈ [constraint.lead], key ∈ keywords := by
    intro key member
    rw [List.mem_singleton.mp member]
    exact lead_mem constraint
  constructor
  · exact keyed
  · exact known
  · intro other recognisable unpicked
    apply passes_describe keyed known recognisable
    · intro key member same
      rw [List.mem_singleton.mp member] at same
      rw [if_pos (eq_of_lead_eq isFixed same.symm)] at unpicked
      cases unpicked
    · intro action isAction
      exact passes_action keyed known (lead_ne_default constraint isFixed) isAction
  · intro other found _ picked previous rest start follows
    split at picked
    · next equal =>
        have here : afterWholePhrase? (constraint.lead :: others) previous
            (constraint.describe ++ rest) = some rest := by
          apply afterWholePhrase?_eq_some_iff.mpr
          exact ⟨start, afterPhrase?_append words (by simp) said rest,
            atWordEnd_iff.mpr (follows.ends.stops (by decide))⟩
        rw [equal, mentionHere, here]
        rfl
    · cases picked

/-- A word that opens no description is not mentioned. -/
theorem finds_nothing {keyword : Text} (member : keyword ∈ keywords) (unused : keyword ∉ leads) :
    Finds [keyword] (mentionHere [keyword]) fun _ => none := by
  have keyed := keyed_mentionHere (isKeyword_of_mem keyword member) []
  have known : ∀ key ∈ [keyword], key ∈ keywords := by
    simpa using member
  have other : ∀ constraint : Constraint, ∀ key ∈ [keyword], key ≠ constraint.lead := by
    intro constraint key keyMem same
    rw [List.mem_singleton.mp keyMem] at same
    exact unused (same ▸ lead_mem_leads constraint)
  constructor
  · exact keyed
  · exact known
  · intro constraint recognisable _
    apply passes_describe keyed known recognisable (other constraint)
    intro action isAction
    apply passes_action keyed known _ isAction
    intro isDefault
    exact other (defaultValue []) _ isDefault rfl
  · intro constraint found _ picked
    cases picked

/-! ## Constraints with free text -/

/-- The reference that a constraint states. -/
def target? : Constraint → Option ForeignKey
  | .foreignKey target => some target
  | _ => none

/-- The default value that a constraint states. -/
def value? : Constraint → Option Text
  | .defaultValue value => some value
  | _ => none

/-- The expression that a constraint checks. -/
def expression? : Constraint → Option Text
  | .checkIn expression => some expression
  | _ => none

theorem finds_reference :
    Finds ["FK".toList, "FOREIGN".toList] ForeignKey.readHere? target? := by
  have known : ∀ key ∈ ["FK".toList, "FOREIGN".toList], key ∈ keywords := by
    decide
  have unused : "FOREIGN".toList ∉ leads := by
    decide
  have noDefault : "DEFAULT".toList ∉ ["FK".toList, "FOREIGN".toList] := by
    decide
  constructor
  · exact ForeignKey.keyed_readHere?
  · exact known
  · intro constraint recognisable unpicked
    have other : constraint.rank ≠ (foreignKey ⟨[], [], none, none⟩).rank := by
      cases constraint <;> simp [rank, target?] at unpicked ⊢
    apply passes_describe ForeignKey.keyed_readHere? known recognisable
    · intro key member same
      rcases List.mem_cons.mp member with isShort | isLong
      · exact other (rank_eq_of_lead_eq (same.symm.trans isShort))
      · rw [List.mem_singleton.mp isLong] at same
        exact unused (same ▸ lead_mem_leads constraint)
    · intro action isAction
      exact passes_action ForeignKey.keyed_readHere? known noDefault isAction
  · intro constraint found recognisable picked previous rest start follows
    cases constraint with
    | foreignKey target =>
        cases picked
        have recoverable := ForeignKey.Apart.recoverable recognisable.apart
          fun name member => (recognisable.free name member).2
        exact ForeignKey.readHere?_describe clear_starts follows recoverable start
    | _ => cases picked

theorem keyed_readDefaultHere? : Keyed ["DEFAULT".toList] readDefaultHere? := by
  have isKeyword : IsKeyword "DEFAULT".toList := by
    decide
  constructor
  · simpa using isKeyword
  · intro previous text found success
    rw [readDefaultHere?, guard_bind_eq_some_iff] at success
    obtain ⟨start, success⟩ := success
    obtain ⟨behind, keyword, success⟩ := Option.bind_eq_some_iff.mp success
    obtain ⟨_, value, _⟩ := Option.bind_eq_some_iff.mp success
    refine ⟨start, "DEFAULT".toList, by simp, heads_of_afterKeyword? isKeyword keyword ?_⟩
    cases behind with
    | nil => exact stops_nil isWord
    | cons c behind =>
        rw [afterSomeBlanks] at value
        split at value
        · next blank => exact stops_cons.mpr (isWord_of_isBlank blank)
        · cases value

/-- Nothing is read where the word ends a segment. -/
theorem readDefaultHere?_of_ends {previous : Option Char} {word rest : Text}
    (same : fold word = fold "DEFAULT".toList) (ends : Ends rest) :
    readDefaultHere? previous (word ++ rest) = none := by
  have keyword : afterKeyword? "DEFAULT".toList (word ++ rest) = some rest :=
    afterKeyword?_eq_some_iff.mpr ⟨word, rfl, same⟩
  have nothing : afterSomeBlanks (shortestUntil endsDefault) rest = none := by
    rcases ends with rfl | ⟨more, rfl⟩
    · rfl
    · rw [afterSomeBlanks, if_neg (by decide)]
  cases success : readDefaultHere? previous (word ++ rest) with
  | none => rfl
  | some found =>
      rw [readDefaultHere?, guard_bind_eq_some_iff, keyword] at success
      obtain ⟨_, success⟩ := success
      rw [Option.bind_eq_bind, Option.bind_some, nothing] at success
      cases success

theorem readDefaultHere?_describe {value rest : Text} {previous : Option Char}
    (recognisable : (defaultValue value).Recognisable) (start : atWordStart previous = true)
    (ends : Ends rest) :
    readDefaultHere? previous ((defaultValue value).describe ++ rest) = some value := by
  obtain ⟨filled, trimmed, noComma⟩ := recognisable.apart
  have free := recognisable.free value (by simp [payload])
  have early : ∀ back, back <:+ value → back ≠ [] → endsDefault (back ++ rest) = false := by
    intro back suffix backFilled
    cases back with
    | nil => exact (backFilled rfl).elim
    | cons c back =>
        have member : c ∈ value := suffix.subset (by simp)
        have comma : c ≠ ',' := by
          rintro rfl
          exact noComma member
        have feed : c ≠ '\n' := by
          rintro rfl
          exact free.2 member
        simp [endsDefault, comma, feed]
  have here : endsDefault rest = true := by
    rcases ends with rfl | ⟨more, rfl⟩
    · rfl
    · rfl
  have stops : Stops isBlank (value ++ rest) := by
    intro c found
    rw [List.head?_append_of_ne_nil _ filled] at found
    exact trimmed.first c found
  have behind : afterSomeBlanks (shortestUntil endsDefault) (' ' :: (value ++ rest)) =
      some (value, rest) := by
    rw [afterSomeBlanks, if_pos (by decide), afterBlanks_of_stops stops]
    exact shortestUntil_append filled free.2 early here
  have keyword : afterKeyword? "DEFAULT".toList ((defaultValue value).describe ++ rest) =
      some (' ' :: (value ++ rest)) :=
    afterKeyword?_append "DEFAULT".toList (' ' :: (value ++ rest))
  rw [readDefaultHere?, guard_bind_eq_some_iff, keyword]
  refine ⟨start, ?_⟩
  simp only [Option.bind_eq_bind, Option.bind_some, behind, trimmed.trim_eq]
  rfl

theorem finds_default : Finds ["DEFAULT".toList] readDefaultHere? value? := by
  have known : ∀ key ∈ ["DEFAULT".toList], key ∈ keywords := by
    decide
  constructor
  · exact keyed_readDefaultHere?
  · exact known
  · intro constraint recognisable unpicked
    have other : constraint.rank ≠ (defaultValue []).rank := by
      cases constraint <;> simp [rank, value?] at unpicked ⊢
    apply passes_describe keyed_readDefaultHere? known recognisable
    · intro key member same
      exact other (rank_eq_of_lead_eq (same.symm.trans (List.mem_singleton.mp member)))
    · -- The action may end with the word, but then no value follows it.
      intro action isAction
      obtain ⟨phrase, member, spells⟩ := isAction.spells
      apply spells.passes keyed_readDefaultHere? (ForeignKey.isKeyword_actions phrase member)
        (lacks_actions_dropLast phrase member)
      intro previous word rest same ends
      exact readDefaultHere?_of_ends same ends
  · intro constraint found recognisable picked previous rest start follows
    cases constraint with
    | defaultValue value =>
        cases picked
        exact readDefaultHere?_describe recognisable start follows.ends
    | _ => cases picked

theorem keyed_readCheckHere? : Keyed ["CHECK".toList] readCheckHere? := by
  have isKeyword : IsKeyword "CHECK".toList := by
    decide
  constructor
  · simpa using isKeyword
  · intro previous text found success
    rw [readCheckHere?, guard_bind_eq_some_iff] at success
    obtain ⟨start, success⟩ := success
    obtain ⟨_, phrase, _⟩ := Option.bind_eq_some_iff.mp success
    exact ⟨start, "CHECK".toList, by simp, heads_of_afterPhrase? isKeyword phrase⟩

theorem readCheckHere?_describe {expression : Text} {previous : Option Char}
    (recognisable : (checkIn expression).Recognisable) (start : atWordStart previous = true)
    (rest : Text) :
    readCheckHere? previous ((checkIn expression).describe ++ rest) = some expression := by
  obtain ⟨filled, trimmed, noParenthesis⟩ := recognisable.apart
  have said : afterPhrase? ["CHECK".toList, "IN".toList] "CHECK IN".toList = some [] := by
    decide
  -- The words stay variables here, so that no step evaluates them.
  have shape : ∀ words blanks mark : Text, "CHECK IN (".toList = words ++ (blanks ++ mark) →
      (checkIn expression).describe ++ rest =
        words ++ (blanks ++ (mark ++ (expression ++ ')' :: rest))) := by
    intro words blanks mark whole
    have written : (checkIn expression).describe = "CHECK IN (".toList ++ expression ++ [')'] := rfl
    rw [written, whole]
    simp only [List.append_assoc, List.singleton_append]
  have phrase : afterPhrase? ["CHECK".toList, "IN".toList]
      ((checkIn expression).describe ++ rest) =
      some ([' '] ++ ("(".toList ++ (expression ++ ')' :: rest))) := by
    rw [shape "CHECK IN".toList [' '] "(".toList (by decide)]
    exact afterPhrase?_append (by decide) (by simp) said _
  have opening : trimLeft ([' '] ++ ("(".toList ++ (expression ++ ')' :: rest))) =
      "(".toList ++ (expression ++ ')' :: rest) :=
    (trimLeft_blank_append (blank_replicate 1) _).trans
      (trimLeft_of_stops (stops_cons.mpr (by decide)))
  rw [readCheckHere?, guard_bind_eq_some_iff, phrase]
  refine ⟨start, ?_⟩
  simp only [Option.bind_eq_bind, Option.bind_some, opening, after?_append,
    upTo?_append filled noParenthesis, trimmed.trim_eq]
  rfl

theorem finds_check : Finds ["CHECK".toList] readCheckHere? expression? := by
  have known : ∀ key ∈ ["CHECK".toList], key ∈ keywords := by
    decide
  have noDefault : "DEFAULT".toList ∉ ["CHECK".toList] := by
    decide
  constructor
  · exact keyed_readCheckHere?
  · exact known
  · intro constraint recognisable unpicked
    have other : constraint.rank ≠ (checkIn []).rank := by
      cases constraint <;> simp [rank, expression?] at unpicked ⊢
    apply passes_describe keyed_readCheckHere? known recognisable
    · intro key member same
      exact other (rank_eq_of_lead_eq (same.symm.trans (List.mem_singleton.mp member)))
    · intro action isAction
      exact passes_action keyed_readCheckHere? known noDefault isAction
  · intro constraint found recognisable picked previous rest start _
    cases constraint with
    | checkIn expression =>
        cases picked
        exact readCheckHere?_describe recognisable start rest
    | _ => cases picked

/-! ## All readers -/

/-- The place of a constraint among those that are read from one comment. -/
def readRank : Constraint → Nat
  | .primaryKey => 0
  | .unique => 1
  | .index => 2
  | .autoIncrement => 3
  | .foreignKey _ => 4
  | .defaultValue _ => 5
  | .checkIn _ => 6

/-- Constraints whose kinds come one after the other, all of them below a bound. -/
structure Ordered (bound : Nat) (constraints : List Constraint) : Prop where
  below : ∀ constraint ∈ constraints, constraint.readRank < bound
  increasing : constraints.Pairwise fun first second => first.readRank < second.readRank

theorem Ordered.append {bound : Nat} {constraints : List Constraint}
    (ordered : Ordered bound constraints) {further : Option Constraint}
    (next : ∀ constraint ∈ further, constraint.readRank = bound) :
    Ordered (bound + 1) (constraints ++ further.toList) := by
  constructor
  · intro constraint member
    rcases List.mem_append.mp member with earlier | added
    · exact Nat.lt_succ_of_lt (ordered.below constraint earlier)
    · rw [next constraint (Option.mem_toList.mp added)]
      exact Nat.lt_succ_self bound
  · rw [List.pairwise_append]
    refine ⟨ordered.increasing, ?_, ?_⟩
    · cases further <;> simp
    · intro first firstMem second secondMem
      rw [next second (Option.mem_toList.mp secondMem)]
      exact ordered.below first firstMem

theorem onlyIf_eq (condition : Bool) (constraint : Constraint) :
    onlyIf condition constraint = (if condition then some constraint else none).toList := by
  cases condition <;> rfl

/-- The constraints read from a comment come in the order of their kinds, one of each. -/
theorem ordered_readAll (text : Text) : Ordered 7 (readAll text) := by
  have empty : Ordered 0 [] := ⟨List.forall_mem_nil _, List.Pairwise.nil⟩
  have rank : ∀ (condition : Bool) (stated : Constraint),
      ∀ constraint ∈ (if condition then some stated else none),
        constraint.readRank = stated.readRank := by
    intro condition stated constraint member
    cases condition with
    | true => rw [Option.some.inj member]
    | false => cases member
  have image : ∀ {α : Type} (found : Option α) (state : α → Constraint) (bound : Nat),
      (∀ value, (state value).readRank = bound) →
      ∀ constraint ∈ found.map state, constraint.readRank = bound := by
    intro α found state bound ranks constraint member
    obtain ⟨value, _, rfl⟩ := Option.map_eq_some_iff.mp member
    exact ranks value
  have ordered := ((((((empty.append (rank (mentionsPrimaryKey text) primaryKey)).append
    (rank (text.mentions ["UNIQUE".toList]) unique)).append
    (rank (text.mentions ["INDEX".toList]) index)).append
    (rank (mentionsAutoIncrement text) autoIncrement)).append
    (image (ForeignKey.read? text) foreignKey 4 fun _ => rfl)).append
    (image (firstMatch readDefaultHere? none text) defaultValue 5 fun _ => rfl)).append
    (image (firstMatch readCheckHere? none text) checkIn 6 fun _ => rfl)
  rw [List.nil_append, ← onlyIf_eq, ← onlyIf_eq, ← onlyIf_eq, ← onlyIf_eq] at ordered
  exact ordered

theorem nodup_readAll (text : Text) : (readAll text).Nodup := by
  apply (ordered_readAll text).increasing.imp
  intro first second earlier same
  rw [same] at earlier
  exact Nat.lt_irrefl _ earlier

theorem mem_onlyIf {condition : Bool} {constraint other : Constraint} :
    other ∈ onlyIf condition constraint ↔ condition = true ∧ other = constraint := by
  cases condition <;> simp [onlyIf]

/-- Of constraints of distinct kinds, the one that a selection finds is the only one. -/
theorem findSome?_eq_some_iff_mem {α : Type} {pick : Constraint → Option α}
    {state : α → Constraint} (picks : ∀ constraint value, pick constraint = some value ↔
      constraint = state value)
    (kind : ∀ value other, (state value).kindName = (state other).kindName)
    {constraints : List Constraint} (distinct : (constraints.map kindName).Nodup) {value : α} :
    constraints.findSome? pick = some value ↔ state value ∈ constraints := by
  constructor
  · intro found
    obtain ⟨constraint, member, picked⟩ := List.exists_of_findSome?_eq_some found
    rw [← (picks constraint value).mp picked]
    exact member
  · intro member
    have here : pick (state value) = some value := (picks (state value) value).mpr rfl
    cases found : constraints.findSome? pick with
    | none =>
        rw [List.findSome?_eq_none_iff.mp found (state value) member] at here
        cases here
    | some other =>
        obtain ⟨constraint, otherMem, picked⟩ := List.exists_of_findSome?_eq_some found
        have shape := (picks constraint other).mp picked
        have same : state value = constraint :=
          List.inj_on_of_nodup_map distinct member otherMem (shape ▸ kind value other)
        rw [same, picked] at here
        exact here

/-- What a comment has to have for a constraint to be read from it. -/
def Reads (text : Text) : Constraint → Prop
  | .primaryKey => mentionsPrimaryKey text = true
  | .unique => text.mentions ["UNIQUE".toList] = true
  | .index => text.mentions ["INDEX".toList] = true
  | .autoIncrement => mentionsAutoIncrement text = true
  | .foreignKey target => ForeignKey.read? text = some target
  | .defaultValue value => firstMatch readDefaultHere? none text = some value
  | .checkIn expression => firstMatch readCheckHere? none text = some expression

theorem mem_readAll {text : Text} {constraint : Constraint} :
    constraint ∈ readAll text ↔ Reads text constraint := by
  cases constraint <;> simp [readAll, mem_onlyIf, Reads]

section Comment

variable {constraints : List Constraint} {tags : List Tag}
  (recognisable : ∀ constraint ∈ constraints, constraint.Recognisable) (neutral : TagsNeutral tags)

include recognisable neutral

/-- A constraint without free text is mentioned when it is among the constraints. -/
theorem mentions_comment (constraint : Constraint) (others : List Text)
    (isFixed : constraint ∈ fixed) (words : ∀ word ∈ constraint.lead :: others, IsKeyword word)
    (said : afterPhrase? (constraint.lead :: others) constraint.describe = some []) :
    mentions (constraint.lead :: others) (comment constraints tags) = true ↔
      constraint ∈ constraints := by
  rw [mentions_iff, (finds_fixed isFixed words said).firstMatch_comment recognisable neutral]
  constructor
  · intro found
    obtain ⟨other, member, picked⟩ := List.exists_of_findSome?_eq_some found
    split at picked
    · next equal => exact equal ▸ member
    · cases picked
  · intro member
    cases found : constraints.findSome? fun other => if other = constraint then some () else none with
    | none =>
        have unpicked := List.findSome?_eq_none_iff.mp found constraint member
        rw [if_pos rfl] at unpicked
        cases unpicked
    | some _ => rfl

theorem not_mentions_comment (keyword : Text) (member : keyword ∈ keywords)
    (unused : keyword ∉ leads) : mentions [keyword] (comment constraints tags) = false := by
  rw [← Bool.not_eq_true, mentions_iff,
    (finds_nothing member unused).firstMatch_comment recognisable neutral,
    List.findSome?_eq_none_iff.mpr fun _ _ => rfl]
  simp

/-- What is read from a comment is what the comment states. -/
theorem mem_readAll_comment (distinct : (constraints.map kindName).Nodup)
    {constraint : Constraint} :
    constraint ∈ readAll (comment constraints tags) ↔ constraint ∈ constraints := by
  rw [mem_readAll]
  cases constraint with
  | primaryKey =>
      rw [Reads, mentionsPrimaryKey, not_mentions_comment recognisable neutral "PK".toList
        (by decide) (by decide), Bool.or_false]
      exact mentions_comment recognisable neutral primaryKey ["KEY".toList] (by simp [fixed])
        (by decide) (by decide)
  | unique =>
      exact mentions_comment recognisable neutral unique [] (by simp [fixed]) (by decide)
        (by decide)
  | index =>
      exact mentions_comment recognisable neutral index [] (by simp [fixed]) (by decide)
        (by decide)
  | autoIncrement =>
      rw [Reads, mentionsAutoIncrement, not_mentions_comment recognisable neutral "IDENTITY".toList
        (by decide) (by decide), Bool.or_false]
      exact mentions_comment recognisable neutral autoIncrement [] (by simp [fixed])
        (by decide) (by decide)
  | foreignKey target =>
      rw [Reads, ForeignKey.read?, finds_reference.firstMatch_comment recognisable neutral]
      apply findSome?_eq_some_iff_mem _ (fun _ _ => rfl) distinct
      intro constraint value
      cases constraint <;> simp [target?]
  | defaultValue value =>
      rw [Reads, finds_default.firstMatch_comment recognisable neutral]
      apply findSome?_eq_some_iff_mem _ (fun _ _ => rfl) distinct
      intro constraint value
      cases constraint <;> simp [value?]
  | checkIn expression =>
      rw [Reads, finds_check.firstMatch_comment recognisable neutral]
      apply findSome?_eq_some_iff_mem _ (fun _ _ => rfl) distinct
      intro constraint value
      cases constraint <;> simp [expression?]

/-- The constraints of a comment are read back, in the order of their kinds. -/
theorem readAll_comment_perm (distinct : (constraints.map kindName).Nodup) :
    (readAll (comment constraints tags)).Perm constraints := by
  apply (List.perm_ext_iff_of_nodup (nodup_readAll _) (List.Nodup.of_map _ distinct)).mpr
  intro constraint
  exact mem_readAll_comment recognisable neutral distinct

end Comment

end SchemaNotation.Constraint
