import SchemaNotation.Proofs.Failure
import SchemaNotation.Proofs.TwoReadings

/-!
# What the options leave out

Constraints and annotations are views of the comments.  A reading that leaves one of them
out stops where the full reading stops, and otherwise differs only in the view: without
annotations every list of them is empty, and without constraints the comment lines that
state them are remarks like any other.
-/

namespace SchemaNotation

/-! ## Columns -/

/-- The column without its annotations. -/
def Column.unannotated (column : Column) : Column :=
  { column with annotations := [] }

/-- The column without its constraints. -/
def Column.unconstrained (column : Column) : Column :=
  { column with constraints := [] }

/-- What the options leave of a column. -/
def Column.kept (options : ReadOptions) (column : Column) : Column :=
  { column with
    constraints := if options.skipConstraints then [] else column.constraints
    annotations := if options.skipAnnotations then [] else column.annotations }

/-- The options only choose what is left of a column. -/
theorem Column.read_eq_kept (options : ReadOptions) (number : Int) (source : Text) :
    Column.read options number source =
      (Column.read {} number source).map (Column.kept options) := by
  dsimp only [read]
  cases readDefinition (Text.trim source) (parts (Text.trim source)).1 with
  | error defect => rfl
  | ok definition =>
      obtain ⟨name, nullable, typeText⟩ := definition
      dsimp only [Except.mapError, bind, Except.bind]
      cases ColumnType.read typeText with
      | error fault => rfl
      | ok type? => cases type? <;> rfl

/-- Columns read with different options agree when what is left of them is related. -/
theorem Column.agrees_read {excuses : ReadError → Prop} (first second : ReadOptions)
    (related : Column → Column → Prop)
    (relates : ∀ column : Column, related (column.kept first) (column.kept second))
    (number : Int) (source : Text) :
    Agrees excuses related (read first number source) (read second number source) := by
  rw [read_eq_kept first, read_eq_kept second]
  exact Agrees.of_map related _ relates

theorem eq_map_of_forall₂ {α β : Type} {image : α → β} {values : List α} {results : List β}
    (related : List.Forall₂ (fun value result => result = image value) values results) :
    results = values.map image := by
  induction related with
  | nil => rfl
  | cons first _ ih => rw [first, ih, List.map_cons]

/-! ## Annotations left out -/

/-- The table without any annotations. -/
def Table.unannotated (table : Table) : Table :=
  { table with columns := table.columns.map Column.unannotated, annotations := [] }

/-- The schema without any annotations. -/
def Schema.unannotated (schema : Schema) : Schema :=
  { schema with tables := schema.tables.map Table.unannotated, annotations := [] }

/-- The entry without any annotations. -/
def BodyEntry.unannotated : BodyEntry → BodyEntry
  | .column definition => .column definition.unannotated
  | entry => entry

@[simp] theorem BodyEntry.column?_unannotated (entry : BodyEntry) :
    entry.unannotated.column? = entry.column?.map Column.unannotated := by
  cases entry <;> rfl

@[simp] theorem BodyEntry.constraint?_unannotated (entry : BodyEntry) :
    entry.unannotated.constraint? = entry.constraint? := by
  cases entry <;> rfl

@[simp] theorem BodyEntry.remark?_unannotated (entry : BodyEntry) :
    entry.unannotated.remark? = entry.remark? := by
  cases entry <;> rfl

/-- The two readings with annotations and without them. -/
theorem twoReadings_annotations (skip : Bool) :
    TwoReadings (fun _ => False) { skipConstraints := skip }
      { skipConstraints := skip, skipAnnotations := true }
      (fun entry other => other = entry.unannotated)
      (fun table other => other = table.unannotated) where
  read number line := by
    unfold BodyEntry.read
    split
    · -- Whether a comment states a constraint does not depend on the annotations.
      change Agrees _ _ (BodyEntry.readConstraint { skipConstraints := skip } _ >>= _)
        (BodyEntry.readConstraint { skipConstraints := skip } _ >>= _)
      cases BodyEntry.readConstraint { skipConstraints := skip } (Comment.content line) with
      | error fault => exact .error fault
      | ok stated? =>
          cases stated? with
          | none => exact .ok rfl
          | some stated => exact .ok rfl
    · split
      · refine (Column.agrees_read { skipConstraints := skip }
          { skipConstraints := skip, skipAnnotations := true }
          (fun column other => other = column.unannotated) (fun _ => rfl) number line).bind ?_
        rintro column _ rfl
        exact .ok rfl
      · exact .error _
  close := by
    rintro before _ ⟨entries, related, rfl⟩
    obtain rfl := eq_map_of_forall₂ related
    change Agrees _ _
      (before.metadata.mapM (BodyEntry.readConstraint { skipConstraints := skip }) >>= _)
      (before.metadata.mapM (BodyEntry.readConstraint { skipConstraints := skip }) >>= _)
    cases before.metadata.mapM (BodyEntry.readConstraint { skipConstraints := skip }) with
    | error fault => exact .error fault
    | ok stated =>
        refine .ok ?_
        simp [Table.unannotated, List.filterMap_map, List.map_filterMap]

/-! ## Constraints left out -/

/-- What the reading without constraints makes of an entry of the full one: a constraint
becomes the remark that states it, and no other remark states one. -/
inductive BodyEntry.Unconstrains : BodyEntry → BodyEntry → Prop where
  | column (definition : Column) :
      Unconstrains (.column definition) (.column definition.unconstrained)
  | constraint {text : Text} {stated : TableConstraint}
      (states : TableConstraint.read text = .ok (some stated)) :
      Unconstrains (.constraint stated) (.remark text)
  | remark {text : Text} (silent : TableConstraint.read text = .ok none) :
      Unconstrains (.remark text) (.remark text)

/-- The table that the reading without constraints gives for a table of the full one.
Its comment lines are all there, and recognising the constraints among them gives those
of the full reading. -/
structure Table.Unconstrains (full bare : Table) : Prop where
  name : bare.name = full.name
  metadata : bare.metadata = full.metadata
  annotations : bare.annotations = full.annotations
  columns : bare.columns = full.columns.map Column.unconstrained
  constraints : bare.constraints = []
  remarks : full.remarks =
    bare.remarks.filter fun remark => (TableConstraint.stated? remark).isNone
  stated : full.constraints =
    (bare.metadata ++ bare.remarks).filterMap TableConstraint.stated?

section

variable {entries others : List BodyEntry}

theorem columns_of_unconstrains (related : List.Forall₂ BodyEntry.Unconstrains entries others) :
    others.filterMap BodyEntry.column? =
      (entries.filterMap BodyEntry.column?).map Column.unconstrained := by
  induction related with
  | nil => rfl
  | cons first _ ih =>
      cases first with
      | column definition => exact congrArg (List.cons definition.unconstrained) ih
      | constraint _ => exact ih
      | remark _ => exact ih

theorem constraints_of_unconstrains (related : List.Forall₂ BodyEntry.Unconstrains entries others) :
    others.filterMap BodyEntry.constraint? = [] := by
  induction related with
  | nil => rfl
  | cons first _ ih => cases first <;> exact ih

theorem remarks_of_unconstrains (related : List.Forall₂ BodyEntry.Unconstrains entries others) :
    entries.filterMap BodyEntry.remark? = (others.filterMap BodyEntry.remark?).filter
      fun remark => (TableConstraint.stated? remark).isNone := by
  induction related with
  | nil => rfl
  | cons first _ ih =>
      cases first with
      | column _ => exact ih
      | constraint states =>
          refine ih.trans (List.filter_cons_of_neg ?_).symm
          simp [TableConstraint.stated?_of_read states]
      | @remark text silent =>
          refine (congrArg (List.cons text) ih).trans (List.filter_cons_of_pos ?_).symm
          simp [TableConstraint.stated?_of_read silent]

theorem stated_of_unconstrains (related : List.Forall₂ BodyEntry.Unconstrains entries others) :
    entries.filterMap BodyEntry.constraint? =
      (others.filterMap BodyEntry.remark?).filterMap TableConstraint.stated? := by
  induction related with
  | nil => rfl
  | cons first _ ih =>
      cases first with
      | column _ => exact ih
      | @constraint text stated states =>
          have recognised := TableConstraint.stated?_of_read states
          exact (congrArg (List.cons stated) ih).trans (List.filterMap_cons_some recognised).symm
      | remark silent =>
          have unrecognised := TableConstraint.stated?_of_read silent
          exact ih.trans (List.filterMap_cons_none unrecognised).symm

end

/-- An error that only the reading of constraints can meet. -/
def ReadError.IsUnknownKind (error : ReadError) : Prop :=
  ∃ fault, error = .unknownKind fault

/-- No line states a constraint when constraints are left out. -/
theorem BodyEntry.mapM_readConstraint_skipped (skip : Bool) (lines : List Text) :
    lines.mapM (readConstraint { skipConstraints := true, skipAnnotations := skip }) =
      .ok (lines.map fun _ => none) := by
  rw [mapM_eq_ok_iff, List.forall₂_map_right_iff, List.forall₂_same]
  intro text _
  rfl

/-- The two readings with constraints and without them. -/
theorem twoReadings_constraints (skip : Bool) :
    TwoReadings ReadError.IsUnknownKind { skipAnnotations := skip }
      { skipConstraints := true, skipAnnotations := skip } BodyEntry.Unconstrains
      Table.Unconstrains where
  read number line := by
    unfold BodyEntry.read
    split
    · change Agrees _ _ ((TableConstraint.read (Comment.content line)).mapError .unknownKind >>= _) _
      cases recognised : TableConstraint.read (Comment.content line) with
      | error fault => exact .excused ⟨fault, rfl⟩ _
      | ok stated? =>
          cases stated? with
          | none => exact .ok (.remark recognised)
          | some stated => exact .ok (.constraint recognised)
    · split
      · refine (Column.agrees_read { skipAnnotations := skip }
          { skipConstraints := true, skipAnnotations := skip }
          (fun column other => other = column.unconstrained) (fun _ => rfl) number line).bind ?_
        rintro column _ rfl
        exact .ok (.column column)
      · exact .error _
  close := by
    rintro before _ ⟨entries, related, rfl⟩
    unfold OpenTable.close
    rw [BodyEntry.mapM_readConstraint_skipped]
    cases read : before.metadata.mapM (BodyEntry.readConstraint { skipAnnotations := skip }) with
    | error fault =>
        obtain ⟨text, _, fails⟩ := exists_of_mapM_eq_error read
        obtain ⟨first, _, raised⟩ := exists_of_mapError_eq_error fails
        exact .excused ⟨first, raised.symm⟩ _
    | ok stated =>
        refine .ok ⟨rfl, rfl, rfl, columns_of_unconstrains related, ?_,
          remarks_of_unconstrains related, ?_⟩
        · simp [constraints_of_unconstrains related]
        · rw [List.filterMap_append, BodyEntry.filterMap_of_readConstraint read,
            stated_of_unconstrains related]

/-! ## Documents -/

/-- The schema that the reading without constraints gives where the full one gives
another. -/
structure Schema.Unconstrains (full bare : Schema) : Prop where
  metadata : bare.metadata = full.metadata
  annotations : bare.annotations = full.annotations
  tables : List.Forall₂ Table.Unconstrains full.tables bare.tables

theorem Schema.read_unannotated (skip : Bool) (text : Text) :
    read { skipConstraints := skip, skipAnnotations := true } text =
      (read { skipConstraints := skip } text).map unannotated := by
  apply Agrees.eq_map
  apply ((twoReadings_annotations skip).agrees text).imp
  rintro ⟨tables, metadata, annotations⟩ ⟨others, otherMetadata, otherAnnotations⟩ reads
  rw [unannotated, ← eq_map_of_forall₂ reads.tables]
  cases reads.metadata
  cases reads.otherAnnotations
  rfl

/-- A document is read without annotations as it is read with them, except that all of
them are missing.  It is read without constraints wherever the full reading succeeds: the
comment lines that state constraints stay among the remarks, and the full reading has the
constraints that these lines state.  A malformed line is reported by both. -/
theorem Schema.leaves_out_views (text : Text) :
    (∀ skip, read { skipConstraints := skip, skipAnnotations := true } text =
      (read { skipConstraints := skip } text).map unannotated) ∧
    ∀ skip,
      (∀ full, read { skipAnnotations := skip } text = .ok full →
        ∃ bare, read { skipConstraints := true, skipAnnotations := skip } text = .ok bare ∧
          full.Unconstrains bare) ∧
      ∀ error, read { skipAnnotations := skip } text = .error (.malformed error) →
        read { skipConstraints := true, skipAnnotations := skip } text =
          .error (.malformed error) := by
  refine ⟨fun skip => read_unannotated skip text, ?_⟩
  intro skip
  have agrees := (twoReadings_constraints skip).agrees text
  constructor
  · intro full found
    rw [found] at agrees
    generalize read { skipConstraints := true, skipAnnotations := skip } text = outcome at agrees ⊢
    cases agrees with
    | @ok _ bare reads =>
        refine ⟨bare, rfl, reads.metadata, ?_, reads.tables⟩
        rw [reads.annotations, reads.otherAnnotations]
  · intro error failed
    rw [failed] at agrees
    generalize read { skipConstraints := true, skipAnnotations := skip } text = outcome at agrees ⊢
    cases agrees with
    | error _ => rfl
    | excused unknown _ =>
        obtain ⟨fault, impossible⟩ := unknown
        cases impossible

section Noted

/-- A document with constraints above a table, between its columns and behind them. -/
def notedText : Text :=
  ("// @owner: sales\n\n// UNIQUE(a, b)\ninterface T \x7b\n  // INDEX(b, a)\n" ++
    "  // kept\n  a: int; // PRIMARY KEY, @unit: kg\n\x7d\n").toList

/-- What the document is read as. -/
def noted : Schema where
  tables := [{
    name := "T".toList
    columns := [{
      name := "a".toList
      type := .simple "int".toList none false
      constraints := [.primaryKey]
      annotations := [⟨"unit".toList, "kg".toList⟩]
      comment := some "PRIMARY KEY, @unit: kg".toList }]
    constraints := [
      { kind := .unique, columns := ["a".toList, "b".toList] },
      { kind := .index, columns := ["b".toList, "a".toList] }]
    metadata := ["UNIQUE(a, b)".toList]
    remarks := ["kept".toList] }]
  metadata := ["@owner: sales".toList]
  annotations := [⟨"owner".toList, "sales".toList⟩]

theorem read_notedText : Schema.read {} notedText = .ok noted := by
  -- Decoding the literal takes the kernel longer than reading its characters.
  have chars : notedText = _ :=
    String.toList_append.trans
      (congrArg₂ (· ++ ·) String.toList_ofList String.toList_ofList)
  rw [chars]
  decide +kernel

end Noted

theorem Schema.leaves_out_views_noted :
    (read {} notedText = .ok noted ∧
      read { skipAnnotations := true } notedText = .ok noted.unannotated ∧
      ∃ bare, read { skipConstraints := true } notedText = .ok bare ∧ noted.Unconstrains bare) ∧
    read {} brokenText = .error (.malformed brokenError) ∧
      read { skipConstraints := true } brokenText = .error (.malformed brokenError) := by
  obtain ⟨withoutAnnotations, withoutConstraints⟩ := leaves_out_views notedText
  refine ⟨⟨read_notedText, ?_, (withoutConstraints false).1 noted read_notedText⟩,
    read_brokenText, ((leaves_out_views brokenText).2 false).2 brokenError read_brokenText⟩
  rw [withoutAnnotations false, read_notedText]
  rfl

end SchemaNotation
