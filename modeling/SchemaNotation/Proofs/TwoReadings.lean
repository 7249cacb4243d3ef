import SchemaNotation.Proofs.Step

/-!
# Two readings of a document

A document is read twice, with different options.  If the two readings agree on every
line of a table and on every table that is closed, they agree on the whole document: they
stop at the same line with the same error, or both read it to its end.
-/

namespace SchemaNotation

/-! ## Outcomes -/

section Agrees

variable {α β γ δ : Type} {excuses : ReadError → Prop} {related : α → β → Prop}

/-- Two outcomes agree when both are results that are related, or both the same error.
After an error of the first one that is excused, the second one may be anything. -/
inductive Agrees (excuses : ReadError → Prop) (related : α → β → Prop) :
    Except ReadError α → Except ReadError β → Prop where
  | ok {value : α} {other : β} (relates : related value other) :
      Agrees excuses related (.ok value) (.ok other)
  | error (fault : ReadError) : Agrees excuses related (.error fault) (.error fault)
  | excused {fault : ReadError} (excuse : excuses fault) (outcome : Except ReadError β) :
      Agrees excuses related (.error fault) outcome

/-- Steps that follow agreeing ones agree when they do so on related results. -/
theorem Agrees.bind {related' : γ → δ → Prop} {step : Except ReadError α}
    {step' : Except ReadError β} {next : α → Except ReadError γ} {next' : β → Except ReadError δ}
    (agrees : Agrees excuses related step step')
    (follows : ∀ value other, related value other →
      Agrees excuses related' (next value) (next' other)) :
    Agrees excuses related' (step >>= next) (step' >>= next') := by
  cases agrees with
  | ok relates => exact follows _ _ relates
  | error fault => exact .error fault
  | excused excuse => exact .excused excuse _

/-- An outcome agrees with its image. -/
theorem Agrees.of_map (related : α → β → Prop) {first : γ → α} {second : γ → β}
    (outcome : Except ReadError γ) (relates : ∀ value, related (first value) (second value)) :
    Agrees excuses related (outcome.map first) (outcome.map second) := by
  cases outcome with
  | ok value => exact .ok (relates value)
  | error fault => exact .error fault

theorem Agrees.imp {related related' : α → β → Prop} {outcome : Except ReadError α}
    {other : Except ReadError β} (agrees : Agrees excuses related outcome other)
    (weakens : ∀ value result, related value result → related' value result) :
    Agrees excuses related' outcome other := by
  cases agrees with
  | ok relates => exact .ok (weakens _ _ relates)
  | error fault => exact .error fault
  | excused excuse => exact .excused excuse _

/-- An outcome that agrees with another up to an image, with nothing excused, has it as
its image. -/
theorem Agrees.eq_map {image : α → β} {outcome : Except ReadError α} {other : Except ReadError β}
    (agrees : Agrees (fun _ => False) (fun value result => result = image value) outcome other) :
    other = outcome.map image := by
  cases agrees with
  | ok relates => exact congrArg Except.ok relates
  | error fault => rfl
  | excused excuse => exact excuse.elim

theorem Agrees.mapM {step : γ → Except ReadError α} {step' : γ → Except ReadError β}
    (each : ∀ value, Agrees excuses related (step value) (step' value)) (values : List γ) :
    Agrees excuses (List.Forall₂ related) (values.mapM step) (values.mapM step') := by
  induction values with
  | nil => exact .ok .nil
  | cons value values ih =>
      rw [List.mapM_cons, List.mapM_cons]
      apply (each value).bind
      intro result other first
      apply ih.bind
      intro results others rest
      exact .ok (.cons first rest)

end Agrees

/-! ## Documents -/

/-- An open table whose entries are related to those of another one, and which is the
same apart from them. -/
def OpenTable.Related (entry : BodyEntry → BodyEntry → Prop) (table other : OpenTable) : Prop :=
  ∃ entries, List.Forall₂ entry table.entries entries ∧ other = { table with entries }

/-- Two readers that stand at the same place. -/
inductive Place.Related (entry : BodyEntry → BodyEntry → Prop) : Place → Place → Prop where
  | between (pending : List Text) : Related entry (.between pending) (.between pending)
  | inside {table other : OpenTable} (related : table.Related entry other) :
      Related entry (.inside table) (.inside other)

/-- What two readers have read of the same lines. -/
structure Progress.Related (entry : BodyEntry → BodyEntry → Prop) (table : Table → Table → Prop)
    (progress other : Progress) : Prop where
  tables : List.Forall₂ table progress.tables other.tables
  metadata : other.metadata = progress.metadata
  place : Place.Related entry progress.place other.place

/-- Two readings that agree on every entry and on every table that is closed. -/
structure TwoReadings (excuses : ReadError → Prop) (first second : ReadOptions)
    (entry : BodyEntry → BodyEntry → Prop) (table : Table → Table → Prop) : Prop where
  read : ∀ number line, Agrees excuses entry (BodyEntry.read first number line)
    (BodyEntry.read second number line)
  close : ∀ {before other : OpenTable}, before.Related entry other →
    Agrees excuses table (before.close first) (other.close second)

namespace TwoReadings

variable {excuses : ReadError → Prop} {first second : ReadOptions}
  {entry : BodyEntry → BodyEntry → Prop} {table : Table → Table → Prop} {progress other : Progress}

theorem add (readings : TwoReadings excuses first second entry table) {before after : OpenTable}
    (related : before.Related entry after) (number : Int) (lines : List Text) :
    Agrees excuses (OpenTable.Related entry) (before.add first number lines)
      (after.add second number lines) := by
  obtain ⟨entries, earlier, rfl⟩ := related
  refine Agrees.bind (Agrees.mapM (readings.read number) lines) ?_
  intro added others later
  exact .ok ⟨entries ++ others, List.rel_append earlier later, rfl⟩

theorem finishTable (readings : TwoReadings excuses first second entry table)
    (related : progress.Related entry table other) {before after : OpenTable}
    (same : before.Related entry after) :
    Agrees excuses (Progress.Related entry table) (progress.finishTable first before)
      (other.finishTable second after) := by
  refine Agrees.bind (readings.close same) ?_
  intro closed otherClosed relates
  refine .ok ⟨List.rel_append related.tables (.cons relates .nil), related.metadata, .between []⟩

theorem openTable (readings : TwoReadings excuses first second entry table)
    (related : progress.Related entry table other) (pending : List Text) (number : Int)
    (line : Text) :
    Agrees excuses (Progress.Related entry table)
      (progress.openTable first pending number (Text.trimLeft line))
      (other.openTable second pending number (Text.trimLeft line)) := by
  rw [Progress.openTable_eq, Progress.openTable_eq]
  cases Interface.opening? line with
  | none => exact .error _
  | some opening =>
      refine Agrees.bind (Agrees.mapM (readings.read number) opening.segments) ?_
      intro entries others relates
      have same : (Progress.opened number line pending opening entries).Related entry
          (Progress.opened number line pending opening others) := ⟨others, relates, rfl⟩
      dsimp only
      split
      · exact readings.finishTable related same
      · exact .ok ⟨related.tables, related.metadata, .inside same⟩

theorem readLine (readings : TwoReadings excuses first second entry table)
    (related : progress.Related entry table other) (number : Int) (line : Text) :
    Agrees excuses (Progress.Related entry table) (progress.readLine first number line)
      (other.readLine second number line) := by
  obtain ⟨tables, metadata, place⟩ := progress
  obtain ⟨otherTables, otherMetadata, otherPlace⟩ := other
  have sameTables := related.tables
  have sameMetadata : otherMetadata = metadata := related.metadata
  cases related.place with
  | between pending =>
      dsimp only [Progress.readLine]
      split
      · exact .ok ⟨sameTables, by rw [sameMetadata], .between []⟩
      · split
        · exact .ok ⟨sameTables, sameMetadata, .between _⟩
        · split
          · exact readings.openTable related pending number line
          · exact .error _
  | inside same =>
      dsimp only [Progress.readLine]
      split
      · exact readings.finishTable related same
      · split
        · exact .ok related
        · refine Agrees.bind (readings.add same number _) ?_
          intro longer otherLonger relates
          exact .ok ⟨sameTables, sameMetadata, .inside relates⟩

theorem readLines (readings : TwoReadings excuses first second entry table)
    (related : progress.Related entry table other) (number : Int) (lines : List Text) :
    Agrees excuses (Progress.Related entry table) (Progress.readLines first progress number lines)
      (Progress.readLines second other number lines) := by
  induction lines generalizing progress other number with
  | nil => exact .ok related
  | cons line lines ih =>
      refine Agrees.bind (readings.readLine related number line) ?_
      intro next otherNext relates
      exact ih relates (number + 1)

/-- Two schemas read from the same document: related tables, the same comment lines, and
whatever annotations the options of each reading find in those. -/
structure Reads (first second : ReadOptions) (table : Table → Table → Prop)
    (schema other : Schema) : Prop where
  tables : List.Forall₂ table schema.tables other.tables
  metadata : other.metadata = schema.metadata
  annotations : schema.annotations =
    if first.skipAnnotations then [] else Tag.readLines schema.metadata
  otherAnnotations : other.annotations =
    if second.skipAnnotations then [] else Tag.readLines schema.metadata

/-- Two readings that agree on lines and tables agree on every document. -/
theorem agrees (readings : TwoReadings excuses first second entry table) (text : Text) :
    Agrees excuses (Reads first second table) (Schema.read first text)
      (Schema.read second text) := by
  have start : Progress.Related entry table {} {} := ⟨.nil, rfl, .between []⟩
  refine Agrees.bind (readings.readLines start 1 text.lines) ?_
  rintro ⟨tables, metadata, place⟩ ⟨otherTables, otherMetadata, otherPlace⟩ related
  obtain ⟨sameTables, rfl, samePlace⟩ := related
  cases samePlace with
  | between pending => exact .ok ⟨sameTables, rfl, rfl, rfl⟩
  | inside same =>
      obtain ⟨entries, _, rfl⟩ := same
      exact .error _

end TwoReadings

end SchemaNotation
