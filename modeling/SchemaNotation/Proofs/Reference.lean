import SchemaNotation.Proofs.Built

/-!
# References in comments

A comment that states a reference is read back as that reference, whatever its names and
actions are.  Of several references only the first is read, because a comment states at
most one.  A reference between plain names states nothing else, except that a default
value is found where the words of an action that sets a default are followed by a blank.
-/

namespace SchemaNotation

open Text

namespace Constraint

/-! ## The reference of a comment -/

/-- The reference among the constraints of a comment is the leftmost one in it. -/
theorem references_readAll (comment : Text) :
    (readAll comment).filterMap target? = (ForeignKey.read? comment).toList := by
  have unstated : ∀ condition constraint, target? constraint = none →
      (onlyIf condition constraint).filterMap target? = [] := by
    intro condition constraint other
    cases condition with
    | true => simp [onlyIf, other]
    | false => rfl
  have stated : ∀ found : Option ForeignKey,
      (found.map foreignKey).toList.filterMap target? = found.toList := by
    intro found
    cases found <;> rfl
  have valued : ∀ found : Option Text, (found.map defaultValue).toList.filterMap target? = [] := by
    intro found
    cases found <;> rfl
  have checked : ∀ found : Option Text, (found.map checkIn).toList.filterMap target? = [] := by
    intro found
    cases found <;> rfl
  simp only [readAll, List.filterMap_append, stated, valued, checked]
  rw [unstated _ _ rfl, unstated _ _ rfl, unstated _ _ rfl, unstated _ _ rfl]
  simp

/-- A reference at the start of a comment is the one that is read. -/
theorem read?_describe_append {target : ForeignKey} (recoverable : target.Recoverable)
    {rest : Text} (follows : Follows starts rest) :
    ForeignKey.read? (target.describe ++ rest) = some target :=
  firstMatch_of_here (ForeignKey.readHere?_describe clear_starts follows recoverable rfl)

theorem references_readAll_append {target : ForeignKey} (recoverable : target.Recoverable)
    {rest : Text} (follows : Follows starts rest) :
    (readAll ((foreignKey target).describe ++ rest)).filterMap target? = [target] := by
  rw [references_readAll]
  exact congrArg Option.toList (read?_describe_append recoverable follows)

/-- The reference that is found in the description of a reference is the reference itself. -/
theorem recovers_reference {target : ForeignKey} (recoverable : target.Recoverable) :
    (readAll (foreignKey target).describe).filterMap target? = [target] := by
  have read := references_readAll_append recoverable (Or.inl rfl)
  rwa [List.append_nil] at read

/-- A reference whose names have the marks of its description in them, with three actions
of which two are joined. -/
def crowdedTarget : ForeignKey where
  table := "a`.`b(c), ON DELETE CASCADE".toList
  column := []
  schema := some "FK -> x y\n".toList
  action := some "ON DELETE SET DEFAULT\n,  on update cascadeOn Delete\tNO ACTION".toList

theorem recoverable_crowdedTarget : crowdedTarget.Recoverable := by
  decide +kernel

theorem recovers_reference_crowded :
    crowdedTarget.Recoverable ∧
      (readAll (foreignKey crowdedTarget).describe).filterMap target? = [crowdedTarget] :=
  ⟨recoverable_crowdedTarget, recovers_reference recoverable_crowdedTarget⟩

end Constraint

namespace Text

/-! ## Words at which nothing is read -/

section Idle

variable {α : Type} {read : Option Char → Text → Option α} {key word : Text}

/-- A word at which nothing is read when neither a word character nor a blank follows it. -/
def Idle (read : Option Char → Text → Option α) (word : Text) : Prop :=
  ∀ previous c rest, isWord c = false → isBlank c = false → read previous (word ++ c :: rest) = none

/-- A reader that succeeds only where a blank follows the word at the start. -/
def Spaced (read : Option Char → Text → Option α) : Prop :=
  ∀ previous text found, read previous text = some found →
    ∃ c rest, text.dropWhile isWord = c :: rest ∧ isBlank c = true

theorem Spaced.idle (spaced : Spaced read) (inside : ∀ c ∈ word, isWord c = true) :
    Idle read word := by
  intro previous c rest separates solid
  cases success : read previous (word ++ c :: rest) with
  | none => rfl
  | some found =>
      obtain ⟨d, more, dropped, blank⟩ := spaced _ _ _ success
      rw [dropWhile_append_of_stops inside (stops_cons.mpr separates)] at dropped
      rw [(List.cons.inj dropped).1, blank] at solid
      cases solid

/-- Another word than the one that a reader is keyed to. -/
theorem idle_of_other (keyed : Keyed [key] read) (inside : ∀ c ∈ word, isWord c = true)
    (other : fold word ≠ fold key) : Idle read word := by
  intro previous c rest separates _
  exact keyed.none_of_other inside other (stops_cons.mpr separates) previous

/-- A scan passes over a word at which nothing is read. -/
theorem Idle.firstMatch_append (idle : Idle read word) (keyed : Keyed [key] read)
    (inside : ∀ c ∈ word, isWord c = true) {c : Char} (separates : isWord c = false)
    (solid : isBlank c = false) (previous : Option Char) (rest : Text) :
    firstMatch read previous (word ++ c :: rest) = firstMatch read (some c) rest :=
  keyed.firstMatch_word inside (stops_cons.mpr separates)
    (idle previous c rest separates solid)

end Idle

theorem dropWhile_of_afterKeyword? {keyword text : Text} {c : Char} {rest : Text}
    (isKeyword : IsKeyword keyword) (found : afterKeyword? keyword text = some (c :: rest))
    (blank : isBlank c = true) : text.dropWhile isWord = c :: rest := by
  obtain ⟨word, rfl, same⟩ := afterKeyword?_eq_some_iff.mp found
  exact dropWhile_append_of_stops (isWord_of_fold_eq isKeyword same)
    (stops_cons.mpr (isWord_of_isBlank blank))

/-- A phrase of several words has a blank behind the first one. -/
theorem blank_of_afterPhrase? {keyword next : Text} {phrase : List Text}
    (isKeyword : IsKeyword keyword) {text rest : Text}
    (found : afterPhrase? (keyword :: next :: phrase) text = some rest) :
    ∃ c rest, text.dropWhile isWord = c :: rest ∧ isBlank c = true := by
  obtain ⟨behind, first, found⟩ := Option.bind_eq_some_iff.mp found
  obtain ⟨_, blanks, _⟩ := Option.bind_eq_some_iff.mp found
  cases behind with
  | nil => cases blanks
  | cons c behind =>
      rw [blanks?] at blanks
      split at blanks
      · next blank => exact ⟨c, behind, dropWhile_of_afterKeyword? isKeyword first blank, blank⟩
      · cases blanks

end Text

namespace Constraint

/-! ## References between plain names -/

theorem spaced_primaryKey : Spaced (afterWholePhrase? ["PRIMARY".toList, "KEY".toList]) := by
  intro previous text found success
  obtain ⟨_, phraseFound, _⟩ := afterWholePhrase?_eq_some_iff.mp success
  exact blank_of_afterPhrase? (isKeyword_of_mem _ (by decide)) phraseFound

theorem spaced_readCheckHere? : Spaced readCheckHere? := by
  intro previous text found success
  rw [readCheckHere?, guard_bind_eq_some_iff] at success
  obtain ⟨_, success⟩ := success
  obtain ⟨_, phraseFound, _⟩ := Option.bind_eq_some_iff.mp success
  exact blank_of_afterPhrase? (isKeyword_of_mem _ (by decide)) phraseFound

/-- A default value stands behind its word and a blank. -/
theorem exists_of_readDefaultHere? {previous : Option Char} {text value : Text}
    (success : readDefaultHere? previous text = some value) :
    ∃ c rest, afterKeyword? "DEFAULT".toList text = some (c :: rest) ∧ isBlank c = true := by
  rw [readDefaultHere?, guard_bind_eq_some_iff] at success
  obtain ⟨_, success⟩ := success
  obtain ⟨behind, keyword, success⟩ := Option.bind_eq_some_iff.mp success
  obtain ⟨_, run, _⟩ := Option.bind_eq_some_iff.mp success
  cases behind with
  | nil => cases run
  | cons c behind =>
      rw [afterSomeBlanks] at run
      split at run
      · next blank => exact ⟨c, behind, keyword, blank⟩
      · cases run

theorem spaced_readDefaultHere? : Spaced readDefaultHere? := by
  intro previous text value success
  obtain ⟨c, rest, keyword, blank⟩ := exists_of_readDefaultHere? success
  have isKeyword : IsKeyword "DEFAULT".toList := isKeyword_of_mem _ (by decide)
  exact ⟨c, rest, dropWhile_of_afterKeyword? isKeyword keyword blank, blank⟩

/-- The words that state a constraint wherever they stand. -/
def loneWords : List Text :=
  ["PK", "UNIQUE", "INDEX", "AUTO_INCREMENT", "IDENTITY"].map String.toList

end Constraint

namespace ForeignKey

/-- A reference between plain names, none of which states a constraint of its own. -/
structure Simple (target : ForeignKey) : Prop where
  plain : ∀ name ∈ target.names, Identifier.isPlain name = true
  unlike : ∀ name ∈ target.names, ∀ word ∈ Constraint.loneWords, fold name ≠ fold word
  action : ∀ action, target.action = some action → Actions action

instance (target : ForeignKey) : Decidable target.Simple :=
  decidable_of_iff ((∀ name ∈ target.names, Identifier.isPlain name = true) ∧
      (∀ name ∈ target.names, ∀ word ∈ Constraint.loneWords, fold name ≠ fold word) ∧
      ∀ action ∈ target.action, Actions action)
    ⟨fun ⟨plain, unlike, action⟩ => ⟨plain, unlike, action⟩,
      fun ⟨plain, unlike, action⟩ => ⟨plain, unlike, action⟩⟩

variable {target : ForeignKey}

theorem Simple.inside (simple : target.Simple) :
    ∀ name ∈ target.names, ∀ c ∈ name, isWord c = true := by
  intro name member c inName
  exact isWord_of_isContinue (Identifier.isContinue_of_isPlain (simple.plain name member) c inName)

theorem Simple.recoverable (simple : target.Simple) : target.Recoverable where
  schema := by
    intro empty
    have plain := simple.plain [] (by simp [names, empty])
    cases plain
  names := by
    intro name member
    exact Identifier.unambiguous_of_free (Identifier.lineFree_of_isPlain (simple.plain name member)).2
  action := simple.action

end ForeignKey

namespace Constraint

theorem lacks_arrow : ∀ key ∈ keywords, key ≠ "FK".toList → Lacks key "FK ->".toList := by
  decide

theorem lacks_joints : ∀ key ∈ keywords, ∀ lead ∈ ForeignKey.joints,
    fold (lead ++ "ON".toList) ≠ fold key := by
  decide

theorem known_loneWords : ∀ word ∈ loneWords,
    word ∈ keywords ∧ word ≠ "FK".toList ∧ word ≠ "DEFAULT".toList := by
  decide

/-- Only whether a word may start behind the character in front matters. -/
theorem firstMatch_default_space (text : Text) :
    firstMatch readDefaultHere? (some ' ') text = firstMatch readDefaultHere? none text := by
  have here : readDefaultHere? (some ' ') text = readDefaultHere? none text := by
    rw [readDefaultHere?, readDefaultHere?, show atWordStart (some ' ') = atWordStart none by decide]
  cases text with
  | nil => exact here
  | cons c text => rw [firstMatch, firstMatch, here]

section Scanned

variable {target : ForeignKey} {α : Type} {read : Option Char → Text → Option α} {key : Text}
  (keyed : Keyed [key] read) (known : key ∈ keywords) (notReference : key ≠ "FK".toList)
  (simple : target.Simple) (idle : ∀ name ∈ target.names, Idle read name)

include keyed known notReference simple idle

/-- A scan passes over the names of a reference when nothing is read at them. -/
theorem firstMatch_place (rest : Text) :
    firstMatch read none (target.place ++ rest) = firstMatch read (some ')') rest := by
  have passed : ∀ name ∈ target.names, ∀ c, isWord c = false → isBlank c = false →
      ∀ previous rest, firstMatch read previous (Identifier.render name ++ c :: rest) =
        firstMatch read (some c) rest := by
    intro name member c separates solid previous rest
    rw [Identifier.render_of_isPlain (simple.plain name member)]
    exact (idle name member).firstMatch_append keyed (simple.inside name member) separates solid
      previous rest
  have arrow : ∀ keyword ∈ [key], LacksFrom keyword none "FK ->".toList := by
    intro keyword member
    rw [List.mem_singleton.mp member]
    exact lacks_iff.mp (lacks_arrow key known notReference)
  have lead : ∀ rest, firstMatch read none ("FK -> ".toList ++ rest) =
      firstMatch read (some ' ') rest :=
    keyed.firstMatch_skip (by decide) arrow
  have located : ∀ previous, firstMatch read previous (Identifier.render target.table ++
      '(' :: (Identifier.render target.column ++ ')' :: rest)) = firstMatch read (some ')') rest := by
    intro previous
    rw [passed target.table (by simp [ForeignKey.names]) '(' (by decide) (by decide)]
    exact passed target.column (by simp [ForeignKey.names]) ')' (by decide) (by decide) _ rest
  have shape : target.place ++ rest = "FK -> ".toList ++ (target.qualifier ++
      (Identifier.render target.table ++ '(' :: (Identifier.render target.column ++ ')' :: rest))) := by
    rw [ForeignKey.place_eq]
    generalize "FK -> ".toList = lead
    simp only [List.append_assoc, List.cons_append, List.nil_append]
  rw [shape, lead, ForeignKey.qualifier]
  cases named : target.schema with
  | none => exact located (some ' ')
  | some schema =>
      rw [List.append_assoc, List.singleton_append,
        passed schema (by simp [ForeignKey.names, named]) '.' (by decide) (by decide)]
      exact located (some '.')

/-- A scan for another word than that of a default value passes over the whole reference. -/
theorem firstMatch_describe_eq_none (notDefault : key ≠ "DEFAULT".toList) :
    firstMatch read none target.describe = none := by
  have isKeyword := isKeyword_of_mem key known
  have behind : Lacks key target.suffix := by
    rw [ForeignKey.suffix]
    cases acts : target.action with
    | none => exact lacks_iff.mpr (lacksFrom_nil isKeyword none)
    | some action =>
        rw [lacks_separators_append isKeyword ForeignKey.isSeparator_comma.isWord_eq_false]
        exact (simple.action action acts).lacks isKeyword (lacks_actions key known notDefault)
          (lacks_joints key known)
  rw [ForeignKey.describe_eq_place simple.recoverable.filled,
    firstMatch_place keyed known notReference simple idle]
  apply keyed.firstMatch_eq_none
  intro keyword member
  rw [List.mem_singleton.mp member]
  exact lacksFrom_of_lacks isKeyword (lacks_iff.mp behind) (some ')')

end Scanned

section Described

variable {target : ForeignKey} (simple : target.Simple)

include simple

theorem not_mentions_primaryKey :
    mentions ["PRIMARY".toList, "KEY".toList] target.describe = false := by
  have isKeyword : IsKeyword "PRIMARY".toList := by
    decide
  have keyed := keyed_afterWholePhrase? isKeyword ["KEY".toList]
  have nothing := firstMatch_describe_eq_none keyed (by decide) (by decide) simple
    (fun name member => spaced_primaryKey.idle (simple.inside name member)) (by decide)
  rw [mentions, nothing]
  rfl

theorem not_mentions_loneWord {word : Text} (member : word ∈ loneWords) :
    mentions [word] target.describe = false := by
  obtain ⟨known, notReference, notDefault⟩ := known_loneWords word member
  have keyed := keyed_afterWholePhrase? (isKeyword_of_mem word known) []
  have idle : ∀ name ∈ target.names, Idle (afterWholePhrase? [word]) name := by
    intro name nameMem
    exact idle_of_other keyed (simple.inside name nameMem) (simple.unlike name nameMem word member)
  rw [mentions, firstMatch_describe_eq_none keyed known notReference simple idle notDefault]
  rfl

theorem firstMatch_check_describe : firstMatch readCheckHere? none target.describe = none :=
  firstMatch_describe_eq_none keyed_readCheckHere? (by decide) (by decide) simple
    (fun name member => spaced_readCheckHere?.idle (simple.inside name member)) (by decide)

/-- A default value is found in the description of a reference where one is found in its
action. -/
theorem firstMatch_default_describe :
    firstMatch readDefaultHere? none target.describe =
      target.action.bind (firstMatch readDefaultHere? none) := by
  have keyed := keyed_readDefaultHere?
  have idle : ∀ name ∈ target.names, Idle readDefaultHere? name :=
    fun name member => spaced_readDefaultHere?.idle (simple.inside name member)
  rw [ForeignKey.describe_eq_place simple.recoverable.filled,
    firstMatch_place keyed (by decide) (by decide) simple idle, ForeignKey.suffix]
  cases target.action with
  | none => exact keyed.none_of_nil (some ')')
  | some action =>
      have comma : firstMatch readDefaultHere? (some ')') (", ".toList ++ action) =
          firstMatch readDefaultHere? (some ' ') action := by
        have lacks : ∀ keyword ∈ ["DEFAULT".toList], LacksFrom keyword (some ')') [','] := by
          intro keyword member
          have isKeyword := keyed.1 keyword member
          exact (lacksFrom_separator isKeyword (by decide)).mpr (lacksFrom_nil isKeyword none)
        exact keyed.firstMatch_skip (by decide) lacks action
      rw [Option.bind_some]
      exact comma.trans (firstMatch_default_space action)

/-- What the description of a reference between plain names is read as. -/
theorem readAll_describe :
    readAll target.describe = foreignKey target ::
      ((target.action.bind (firstMatch readDefaultHere? none)).map defaultValue).toList := by
  have lone : ∀ word ∈ loneWords, mentions [word] target.describe = false :=
    fun word => not_mentions_loneWord simple
  have reference := read?_describe_append simple.recoverable (Or.inl rfl)
  rw [List.append_nil] at reference
  rw [readAll, mentionsPrimaryKey, mentionsAutoIncrement, not_mentions_primaryKey simple,
    lone "PK".toList (by simp [loneWords]), lone "UNIQUE".toList (by simp [loneWords]),
    lone "INDEX".toList (by simp [loneWords]), lone "AUTO_INCREMENT".toList (by simp [loneWords]),
    lone "IDENTITY".toList (by simp [loneWords]), reference, firstMatch_default_describe simple,
    firstMatch_check_describe simple]
  simp [onlyIf]

end Described

/-- Whether the word of a default value starts the text, with a blank behind it. -/
def startsDefault (text : Text) : Bool :=
  match afterKeyword? "DEFAULT".toList text with
  | some (c :: _) => isBlank c
  | _ => false

/-- The word of a default value stands in the text with a blank behind it. -/
def OpensDefault (text : Text) : Prop :=
  ∃ back, back <:+ text ∧ startsDefault back = true

instance (text : Text) : Decidable (OpensDefault text) :=
  decidable_of_iff (∃ back ∈ text.tails, startsDefault back = true)
    (exists_congr fun back => and_congr_left fun _ => List.mem_tails back text)

theorem opensDefault_of_firstMatch {previous : Option Char} {text value : Text}
    (success : firstMatch readDefaultHere? previous text = some value) : OpensDefault text := by
  obtain ⟨before, back, suffix, here⟩ := exists_of_firstMatch success
  obtain ⟨c, rest, keyword, blank⟩ := exists_of_readDefaultHere? here
  refine ⟨back, suffix, ?_⟩
  rw [startsDefault, keyword]
  exact blank

/-- The description of a reference between plain names states the reference, and beside it
only the default value that is found in its action: none when no action that sets a default
has a blank behind it. -/
theorem states_reference {target : ForeignKey} (simple : target.Simple) :
    readAll (foreignKey target).describe = foreignKey target ::
        ((target.action.bind (firstMatch readDefaultHere? none)).map defaultValue).toList ∧
      ((∀ action, target.action = some action → ¬OpensDefault action) →
        readAll (foreignKey target).describe = [foreignKey target]) := by
  have read : readAll (foreignKey target).describe = _ := readAll_describe simple
  refine ⟨read, ?_⟩
  intro closed
  rw [read]
  cases acts : target.action with
  | none => rfl
  | some action =>
      rw [Option.bind_some]
      cases found : firstMatch readDefaultHere? none action with
      | none => rfl
      | some value => exact (closed action acts (opensDefault_of_firstMatch found)).elim

/-- A reference whose names are words of the notation, with actions that set defaults. -/
def wordyTarget : ForeignKey where
  table := "DEFAULT".toList
  column := "check".toList
  schema := some "Primary".toList
  action := some "ON DELETE SET DEFAULT,\tON UPDATE\nSET DEFAULTon update set default".toList

theorem simple_wordyTarget : wordyTarget.Simple := by
  decide +kernel

theorem states_reference_wordy :
    wordyTarget.Simple ∧ (∀ action, wordyTarget.action = some action → ¬OpensDefault action) ∧
      readAll (foreignKey wordyTarget).describe = [foreignKey wordyTarget] := by
  have closed : ∀ action ∈ wordyTarget.action, ¬OpensDefault action := by
    decide
  exact ⟨simple_wordyTarget, closed, (states_reference simple_wordyTarget).2 closed⟩

/-- A reference with an action that sets a default and a further action right behind it. -/
def owner : ForeignKey where
  table := "Users".toList
  column := "id".toList
  action := some "ON DELETE SET DEFAULT ON UPDATE CASCADE".toList

/-- The further action is read as a default value. -/
theorem action_read_as_default :
    owner.Simple ∧ readAll (foreignKey owner).describe =
      [foreignKey owner, defaultValue "ON UPDATE CASCADE".toList] := by
  have simple : owner.Simple := by
    decide +kernel
  have found : owner.action.bind (firstMatch readDefaultHere? none) =
      some "ON UPDATE CASCADE".toList := by
    decide
  refine ⟨simple, ?_⟩
  have read := readAll_describe simple
  rw [found] at read
  exact read

/-! ## Several references -/

/-- The comment that states a column with references starts with the first of them. -/
theorem exists_statedComment {column : Column} {target : ForeignKey} {others : List ForeignKey}
    (carries : column.constraints = (target :: others).map foreignKey) :
    ∃ rest, column.statedComment? = some ((foreignKey target).describe ++ rest) ∧
      Follows starts rest := by
  have sorted : Column.inOrder column.constraints = column.constraints := by
    apply List.mergeSort_of_pairwise
    rw [carries, List.pairwise_map]
    exact List.pairwise_of_forall fun _ _ => rfl
  have listed : facts column.constraints column.annotations =
      Fact.constraint (foreignKey target) :: facts (others.map foreignKey) column.annotations := by
    rw [carries]
    rfl
  have opens : ∀ segment ∈ (facts (others.map foreignKey) column.annotations).map Fact.text,
      ∃ c rest, segment = c :: rest ∧ c ∈ starts := by
    intro segment member
    obtain ⟨fact, _, rfl⟩ := List.mem_map.mp member
    exact fact.opens
  obtain ⟨rest, shape, follows, _⟩ := @intercalate_follows (foreignKey target).describe _ _ opens
  refine ⟨rest, ?_, follows⟩
  rw [Column.statedComment?_eq, sorted, listed, if_neg (List.cons_ne_nil _ _), comment, listed,
    List.map_cons]
  exact congrArg some shape

/-- Of the references that the comment of a column states, only the first one is read. -/
theorem reads_first_reference {column : Column} {target : ForeignKey} {others : List ForeignKey}
    (recoverable : target.Recoverable)
    (carries : column.constraints = (target :: others).map foreignKey) :
    ∃ comment, column.statedComment? = some comment ∧
      (readAll comment).filterMap target? = [target] := by
  obtain ⟨rest, stated, follows⟩ := exists_statedComment carries
  exact ⟨_, stated, references_readAll_append recoverable follows⟩

/-- A reference, and two more behind it, of which one repeats it. -/
def firstReference : ForeignKey where
  table := "Users".toList
  column := "id".toList

def furtherReferences : List ForeignKey :=
  [{ table := "Teams".toList, column := "id".toList, schema := some "org".toList },
    firstReference]

/-- A column that carries the references. -/
def sharedColumn : Column where
  name := "owner".toList
  type := .simple "int".toList none false
  constraints := (firstReference :: furtherReferences).map foreignKey

theorem recoverable_firstReference : firstReference.Recoverable := by
  decide

theorem reads_first_reference_shared :
    firstReference.Recoverable ∧
      sharedColumn.constraints = (firstReference :: furtherReferences).map foreignKey ∧
      ∃ comment, sharedColumn.statedComment? = some comment ∧
        (readAll comment).filterMap target? = [firstReference] :=
  ⟨recoverable_firstReference, rfl, reads_first_reference recoverable_firstReference rfl⟩

/-- The references behind the first one are lost. -/
theorem further_references_lost :
    (∀ target ∈ firstReference :: furtherReferences,
        (∀ name ∈ target.names, Identifier.isPlain name = true) ∧ target.action = none) ∧
      sharedColumn.constraints = (firstReference :: furtherReferences).map foreignKey ∧
      ∃ comment, sharedColumn.statedComment? = some comment ∧
        (readAll comment).filterMap target? ≠ firstReference :: furtherReferences := by
  have plain : ∀ target ∈ firstReference :: furtherReferences,
      (∀ name ∈ target.names, Identifier.isPlain name = true) ∧ target.action = none := by
    decide
  have carries : sharedColumn.constraints = (firstReference :: furtherReferences).map foreignKey :=
    rfl
  obtain ⟨rest, stated, follows⟩ := exists_statedComment carries
  refine ⟨plain, carries, _, stated, ?_⟩
  rw [references_readAll_append recoverable_firstReference follows]
  decide

end Constraint

end SchemaNotation
