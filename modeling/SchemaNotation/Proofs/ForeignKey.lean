import SchemaNotation.Proofs.Action

/-!
# References read back

A reference is read back from its description, whatever actions it has and whatever names,
save one that is plain up to a line feed at its end.  What stands behind the description
is left alone as long as it cannot be taken for one more action.
-/

namespace SchemaNotation.ForeignKey

open Text

/-! ## Targets -/

theorem readName?_render {name rest : Text} (unambiguous : Identifier.Unambiguous name)
    (noMark : Stops (· == backtick) rest) (noWord : Stops isWord rest) :
    readName? (Identifier.render name ++ rest) = some (name, rest) := by
  rcases unambiguous.render_cases with ⟨plain, written⟩ | ⟨_, written⟩
  · have filled : name ≠ [] := by
      rintro rfl
      cases plain
    have inside : ∀ c ∈ name, isWord c = true := by
      intro c member
      exact isWord_of_isContinue (Identifier.isContinue_of_isPlain plain c member)
    rw [written, readName?, Identifier.readQuoted?_of_isPlain plain]
    exact word?_append filled inside noWord
  · rw [written, readName?, Identifier.readQuoted?_quote name noMark]

/-- The names in a reference. -/
def names (target : ForeignKey) : List Text :=
  target.schema.toList ++ [target.table, target.column]

/-- The schema of a reference as its description has it. -/
def qualifier (target : ForeignKey) : Text :=
  match target.schema with
  | some schema => Identifier.render schema ++ ['.']
  | none => []

/-- The action of a reference as its description has it. -/
def suffix (target : ForeignKey) : Text :=
  match target.action with
  | some action => ", ".toList ++ action
  | none => []

/-- A reference whose parts can be told apart in its description. -/
structure Apart (target : ForeignKey) : Prop where
  schema : target.schema ≠ some []
  action : ∀ action, target.action = some action → IsAction action

instance (target : ForeignKey) : Decidable target.Apart :=
  decidable_of_iff (target.schema ≠ some [] ∧ ∀ action ∈ target.action, IsAction action)
    ⟨fun ⟨schema, action⟩ => ⟨schema, action⟩, fun ⟨schema, action⟩ => ⟨schema, action⟩⟩

/-- A reference whose parts can be told apart in its description, and whose action stands
on one line. -/
structure Separable (target : ForeignKey) : Prop where
  schema : target.schema ≠ some []
  action : ∀ action, target.action = some action → LineFree action ∧ IsAction action

instance (target : ForeignKey) : Decidable target.Separable :=
  decidable_of_iff (target.schema ≠ some [] ∧ ∀ action ∈ target.action,
      LineFree action ∧ IsAction action)
    ⟨fun ⟨schema, action⟩ => ⟨schema, action⟩, fun ⟨schema, action⟩ => ⟨schema, action⟩⟩

/-- A reference that is recovered from its description: no name is ambiguous in writing,
nothing empty is left out, and the action is a sequence of actions. -/
structure Recoverable (target : ForeignKey) : Prop where
  schema : target.schema ≠ some []
  names : ∀ name ∈ target.names, Identifier.Unambiguous name
  action : ∀ action, target.action = some action → Actions action

instance (target : ForeignKey) : Decidable target.Recoverable :=
  decidable_of_iff (target.schema ≠ some [] ∧ (∀ name ∈ target.names, Identifier.Unambiguous name) ∧
      ∀ action ∈ target.action, Actions action)
    ⟨fun ⟨schema, names, action⟩ => ⟨schema, names, action⟩,
      fun ⟨schema, names, action⟩ => ⟨schema, names, action⟩⟩

/-- A reference with no empty text that its description leaves out. -/
structure Filled (target : ForeignKey) : Prop where
  schema : target.schema ≠ some []
  action : target.action ≠ some []

variable {target : ForeignKey}

theorem Separable.apart (separable : target.Separable) : target.Apart :=
  ⟨separable.schema, fun action acts => (separable.action action acts).2⟩

theorem Recoverable.filled (recoverable : target.Recoverable) : target.Filled :=
  ⟨recoverable.schema, fun acts => (recoverable.action [] acts).ne_nil rfl⟩

theorem Apart.filled (apart : target.Apart) : target.Filled :=
  ⟨apart.schema, fun acts => (apart.action [] acts).actions.ne_nil rfl⟩

theorem Apart.recoverable (apart : target.Apart) (free : ∀ name ∈ target.names, '\n' ∉ name) :
    target.Recoverable where
  schema := apart.schema
  names := fun name member => Identifier.unambiguous_of_free (free name member)
  action := fun action acts => (apart.action action acts).actions

theorem describe_eq (filled : target.Filled) :
    target.describe = "FK -> ".toList ++ (target.qualifier ++ (Identifier.render target.table ++
      '(' :: (Identifier.render target.column ++ ')' :: target.suffix))) := by
  obtain ⟨noSchema, noAction⟩ := filled
  obtain ⟨table, column, schema, action⟩ := target
  have shape : ∀ qualifier suffix : Text,
      "FK -> ".toList ++ qualifier ++ Identifier.render table ++
        '(' :: Identifier.render column ++ ')' :: suffix =
      "FK -> ".toList ++ (qualifier ++ (Identifier.render table ++
        '(' :: (Identifier.render column ++ ')' :: suffix))) := by
    intro qualifier suffix
    generalize "FK -> ".toList = lead
    simp only [List.append_assoc, List.cons_append]
  rw [← shape]
  cases schema with
  | none =>
      cases action with
      | none => rfl
      | some action =>
          cases action with
          | nil => exact (noAction rfl).elim
          | cons c action => rfl
  | some schema =>
      cases schema with
      | nil => exact (noSchema rfl).elim
      | cons c schema =>
          cases action with
          | none => rfl
          | some action =>
              cases action with
              | nil => exact (noAction rfl).elim
              | cons c action => rfl

section Described

variable {starts rest : Text} (clear : ∀ c ∈ starts, isBlank c = false ∧ foldLetter c ≠ 'o')
  (follows : Follows starts rest)

include clear follows

/-- The action of a described reference is read back, also when there is none. -/
theorem readAction?_suffix (actions : ∀ action, target.action = some action → Actions action) :
    readAction? (target.suffix ++ rest) = target.action := by
  rw [suffix]
  cases acts : target.action with
  | none => exact readAction?_of_follows clear follows
  | some action =>
      rw [List.append_assoc]
      exact (actions action acts).readAction? (afterAction?_of_follows clear follows)

theorem readColumn?_render (recoverable : target.Recoverable) (schema : Option Text)
    (table : Text) :
    readColumn? schema table
        ('(' :: (Identifier.render target.column ++ ')' :: (target.suffix ++ rest))) =
      some { table, column := target.column, schema, action := target.action } := by
  have column := recoverable.names target.column (by simp [names])
  rw [readColumn?, readName?_render column (stops_cons.mpr (by decide)) (stops_cons.mpr (by decide))]
  simp only [readAction?_suffix clear follows recoverable.action]

theorem readTarget?_render (recoverable : target.Recoverable) :
    readTarget? (target.qualifier ++ (Identifier.render target.table ++
        '(' :: (Identifier.render target.column ++ ')' :: (target.suffix ++ rest)))) =
      some target := by
  have table := recoverable.names target.table (by simp [names])
  have column := readColumn?_render clear follows recoverable
  have named : ∀ behind, readName? (Identifier.render target.table ++ '(' :: behind) =
      some (target.table, '(' :: behind) := by
    intro behind
    exact readName?_render table (stops_cons.mpr (by decide)) (stops_cons.mpr (by decide))
  have schemaNames := recoverable.names
  obtain ⟨tableName, columnName, schema, action⟩ := target
  cases schema with
  | none =>
      rw [qualifier, List.nil_append, readTarget?, named]
      exact column none tableName
  | some schema =>
      have schemaName := schemaNames schema (by simp [names])
      rw [qualifier, List.append_assoc, readTarget?, List.singleton_append,
        readName?_render schemaName (stops_cons.mpr (by decide)) (stops_cons.mpr (by decide))]
      simp only [Option.bind_eq_bind, Option.bind_some, named]
      exact column (some schema) tableName

/-- A described reference is read back where its keyword can start. -/
theorem readHere?_describe (recoverable : target.Recoverable) {previous : Option Char}
    (start : atWordStart previous = true) :
    readHere? previous (target.describe ++ rest) = some target := by
  have read := readTarget?_render clear follows recoverable
  have nested : ∀ lead : Text, lead ++ (target.qualifier ++ (Identifier.render target.table ++
      '(' :: (Identifier.render target.column ++ ')' :: target.suffix))) ++ rest =
      lead ++ (target.qualifier ++ (Identifier.render target.table ++
        '(' :: (Identifier.render target.column ++ ')' :: (target.suffix ++ rest)))) := by
    intro lead
    simp only [List.append_assoc, List.cons_append]
  rw [describe_eq recoverable.filled, nested]
  generalize shape : target.qualifier ++ (Identifier.render target.table ++
    '(' :: (Identifier.render target.column ++ ')' :: (target.suffix ++ rest))) = text at read ⊢
  have stops : Stops isBlank text := by
    rw [← shape, qualifier]
    cases schema : target.schema with
    | none =>
        have table := recoverable.names target.table (by simp [names])
        exact table.stops_render (by decide) (fun _ => isBlank_of_isWord) _
    | some name =>
        have known := recoverable.names name (by simp [names, schema])
        rw [List.append_assoc]
        exact known.stops_render (by decide) (fun _ => isBlank_of_isWord) _
  have keyword : afterWholePhrase? ["FK".toList] previous ("FK -> ".toList ++ text) =
      some (" -> ".toList ++ text) := by
    apply afterWholePhrase?_eq_some_iff.mpr
    exact ⟨start, afterKeyword?_append "FK".toList (" -> ".toList ++ text), rfl⟩
  have arrow : after? "->".toList (trimLeft (" -> ".toList ++ text)) = some (' ' :: text) := by
    rw [show trimLeft (" -> ".toList ++ text) = "->".toList ++ ' ' :: text from
      (trimLeft_blank_append (blank_replicate 1) ("-> ".toList ++ text)).trans
        (trimLeft_of_stops (stops_cons.mpr (by decide)))]
    exact after?_append "->".toList (' ' :: text)
  have target : trimLeft (' ' :: text) = text :=
    (trimLeft_blank_append (blank_replicate 1) text).trans (trimLeft_of_stops stops)
  rw [readHere?, keyword]
  simp only [Option.bind_eq_bind, Option.bind_some, arrow, target]
  exact read

end Described

/-! ## References among other text -/

theorem keyed_readHere? : Keyed ["FK".toList, "FOREIGN".toList] readHere? := by
  constructor
  · decide
  · intro previous text found success
    cases short : afterWholePhrase? ["FK".toList] previous text with
    | some rest =>
        have keyed := keyed_afterWholePhrase? (show IsKeyword "FK".toList by decide) []
        obtain ⟨start, key, member, heads⟩ := keyed.2 previous text rest short
        exact ⟨start, key, List.mem_cons.mpr (Or.inl (List.mem_singleton.mp member)), heads⟩
    | none =>
        cases long : afterWholePhrase? ["FOREIGN".toList, "KEY".toList] previous text with
        | some rest =>
            have keyed := keyed_afterWholePhrase?
              (show IsKeyword "FOREIGN".toList by decide) ["KEY".toList]
            obtain ⟨start, key, member, heads⟩ := keyed.2 previous text rest long
            exact ⟨start, key, List.mem_cons_of_mem _ member, heads⟩
        | none =>
            rw [readHere?, short, long] at success
            cases success

/-- The description of a reference without its action. -/
def place (target : ForeignKey) : Text :=
  "FK -> ".toList ++ (target.qualifier ++ (Identifier.render target.table ++
    '(' :: (Identifier.render target.column ++ [')'])))

theorem place_eq (target : ForeignKey) :
    target.place = "FK -> ".toList ++ (target.qualifier ++ (Identifier.render target.table ++
      '(' :: (Identifier.render target.column ++ [')']))) :=
  rfl

theorem describe_eq_place (filled : target.Filled) :
    target.describe = target.place ++ target.suffix := by
  rw [describe_eq filled, place_eq]
  generalize "FK -> ".toList = lead
  simp only [List.append_assoc, List.cons_append, List.nil_append]

/-- A reference has a word outside of its action only when one of its names has it. -/
theorem lacks_place {keyword : Text} (isKeyword : IsKeyword keyword)
    (other : fold "FK".toList ≠ fold keyword)
    (names : ∀ name ∈ target.names, '\n' ∉ name ∧ Lacks keyword name) :
    Lacks keyword target.place := by
  have table := names target.table (by simp [ForeignKey.names])
  have column := names target.column (by simp [ForeignKey.names])
  have located : Lacks keyword (Identifier.render target.table ++
      '(' :: (Identifier.render target.column ++ [')'])) := by
    rw [lacks_append isKeyword (by decide), lacks_append isKeyword (by decide)]
    exact ⟨lacks_render table.1 isKeyword table.2, lacks_render column.1 isKeyword column.2,
      lacks_iff.mpr (lacksFrom_nil isKeyword none)⟩
  have qualified : Lacks keyword (target.qualifier ++ (Identifier.render target.table ++
      '(' :: (Identifier.render target.column ++ [')']))) := by
    rw [qualifier]
    cases named : target.schema with
    | none => exact located
    | some schema =>
        have known := names schema (by simp [ForeignKey.names, named])
        rw [List.append_assoc, List.singleton_append, lacks_append isKeyword (by decide)]
        exact ⟨lacks_render known.1 isKeyword known.2, located⟩
  have letters := isWord_of_fold_eq (show IsKeyword "FK".toList by decide) rfl
  have lead : Lacks keyword "FK".toList := lacks_word isKeyword letters other
  have shape : target.place = "FK".toList ++ ' ' :: '-' :: '>' :: ' ' :: (target.qualifier ++
      (Identifier.render target.table ++ '(' :: (Identifier.render target.column ++ [')']))) := rfl
  rw [shape]
  apply (lacks_append isKeyword (show isWord ' ' = false by decide)).mpr
  apply And.intro lead
  apply (lacks_separator isKeyword (show isWord '-' = false by decide)).mpr
  apply (lacks_separator isKeyword (show isWord '>' = false by decide)).mpr
  exact (lacks_separator isKeyword (by decide)).mpr qualified

/-- A scan passes over a reference when it passes over the action. -/
theorem passes_describe {α : Type} {read : Option Char → Text → Option α} {keywords : List Text}
    (keyed : Keyed keywords read) (apart : target.Apart)
    (others : ∀ keyword ∈ keywords, fold "FK".toList ≠ fold keyword)
    (names : ∀ keyword ∈ keywords, ∀ name ∈ target.names, '\n' ∉ name ∧ Lacks keyword name)
    (actions : ∀ action, target.action = some action → Passes read action) :
    Passes read target.describe := by
  have lacks : ∀ keyword ∈ keywords, Lacks keyword target.place := by
    intro keyword member
    exact lacks_place (keyed.1 keyword member) (others keyword member) (names keyword member)
  rw [describe_eq_place apart.filled, suffix]
  cases acts : target.action with
  | none =>
      rw [List.append_nil]
      exact keyed.passes lacks
  | some action =>
      intro previous rest ends
      have before : ∀ keyword ∈ keywords, LacksFrom keyword previous target.place := by
        intro keyword member
        exact lacksFrom_of_lacks (keyed.1 keyword member) (lacks_iff.mp (lacks keyword member))
          previous
      have comma := keyed.firstMatch_skip (show isWord ',' = false by decide) before
        (' ' :: (action ++ rest))
      rw [List.append_assoc, List.append_assoc]
      apply comma.trans
      rw [firstMatch, keyed.none_of_separator (by decide)]
      exact actions action acts (some ' ') rest ends

end SchemaNotation.ForeignKey
