import SchemaNotation.Proofs.Column
import SchemaNotation.Proofs.Line
import SchemaNotation.Proofs.Step
import SchemaNotation.Proofs.TableConstraint

/-!
# What a document states

Every line of a document keeps the reader in order: the columns it has read can be
written, its comment lines are trimmed, and the constraints and annotations of a table
are those that its lines state.  So whatever a document is read as has these
properties too.
-/

namespace SchemaNotation

namespace Body

/-! ## One-line bodies -/

/-- The pieces of a one-line body are cut out of it. -/
theorem cut_piecesFrom (inLiteral : Bool) (text : Text) :
    Text.Cut text (piecesFrom inLiteral text) := by
  induction text generalizing inLiteral with
  | nil => exact Text.cut_singleton []
  | cons c text ih =>
      rw [piecesFrom]
      split
      · exact (ih _).pushFront c
      · split
        · exact Text.cut_singleton (c :: text)
        · split
          · exact (ih _).nil_cons (List.suffix_cons c text)
          · exact (ih _).pushFront c

/-- What holds of all pieces, and of two joined ones when it holds of both, holds of
every segment. -/
theorem of_mem_attachComments (holds : Text → Prop)
    (joins : ∀ {first next : Text}, holds first → holds next → holds (first ++ "; ".toList ++ next))
    {segments : List Text} {segment : Text} (all : ∀ segment ∈ segments, holds segment)
    (member : segment ∈ attachComments segments) : holds segment := by
  fun_induction attachComments segments generalizing segment with
  | case1 => cases member
  | case2 only =>
      rw [List.mem_singleton] at member
      exact member ▸ all only (by simp)
  | case3 first next segments _ ih =>
      refine ih ?_ member
      intro other otherMem
      rcases List.mem_cons.mp otherMem with rfl | otherMem
      · exact joins (all first (by simp)) (all next (by simp))
      · exact all other (by simp [otherMem])
  | case4 first next segments _ ih =>
      rcases List.mem_cons.mp member with rfl | member
      · exact all segment (by simp)
      · exact ih (fun other otherMem => all other (List.mem_cons_of_mem _ otherMem)) member

/-- The trimmed pieces of a body that are not empty. -/
def parts (body : Text) : List Text :=
  ((piecesFrom false body).map Text.trim).filter fun piece => !piece.isEmpty

theorem segments_eq (body : Text) : segments body = attachComments (parts body) := rfl

theorem exists_of_mem_parts {body part : Text} (member : part ∈ parts body) :
    part ≠ [] ∧ ∃ piece ∈ piecesFrom false body, part = Text.trim piece := by
  obtain ⟨trimMem, filled⟩ := List.mem_filter.mp member
  obtain ⟨piece, pieceMem, rfl⟩ := List.mem_map.mp trimMem
  exact ⟨by simpa using filled, piece, pieceMem, rfl⟩

theorem within_of_mem_parts {body part : Text} (member : part ∈ parts body) : part <:+: body := by
  obtain ⟨_, piece, pieceMem, rfl⟩ := exists_of_mem_parts member
  exact (Text.trim_within piece).trans ((cut_piecesFrom false body).within pieceMem)

theorem lineFree_of_mem_segments {text segment : Text} (free : Text.LineFree text)
    (member : segment ∈ segments text) : Text.LineFree segment := by
  have joins {first next : Text} (firstFree : Text.LineFree first) (nextFree : Text.LineFree next) :
      Text.LineFree (first ++ "; ".toList ++ next) := by
    simp [firstFree, nextFree]
  refine of_mem_attachComments Text.LineFree joins ?_ member
  intro part partMem
  exact free.mono (within_of_mem_parts partMem).subset

end Body

/-- A text that a comment line keeps as it is. -/
structure Comment.Kept (text : Text) : Prop where
  trimmed : Text.Trimmed text
  free : Text.LineFree text

theorem Comment.kept_content {line : Text} (free : Text.LineFree line) : Kept (content line) :=
  ⟨trimmed_content line, free.mono (content_subset line)⟩

/-- A constraint whose column names can be listed on one line. -/
def TableConstraint.Plain (constraint : TableConstraint) : Prop :=
  ∀ name ∈ constraint.columns, Listed name ∧ Text.LineFree name

instance (constraint : TableConstraint) : Decidable constraint.Plain :=
  inferInstanceAs (Decidable (∀ name ∈ constraint.columns, _))

/-- The constraint that a comment text is recognised as. -/
def TableConstraint.stated? (text : Text) : Option TableConstraint :=
  match read text with
  | .ok stated => stated
  | .error _ => none

theorem TableConstraint.stated?_of_read {text : Text} {stated : Option TableConstraint}
    (recognised : read text = .ok stated) : stated? text = stated := by
  rw [stated?, recognised]

namespace BodyEntry

/-! ## Entries -/

theorem mem_filterMap_column? {entries : List BodyEntry} {definition : Column} :
    definition ∈ entries.filterMap column? ↔ .column definition ∈ entries := by
  rw [List.mem_filterMap]
  constructor
  · rintro ⟨entry, member, isColumn⟩
    cases entry <;> cases isColumn
    exact member
  · exact fun member => ⟨_, member, rfl⟩

theorem mem_filterMap_constraint? {entries : List BodyEntry} {stated : TableConstraint} :
    stated ∈ entries.filterMap constraint? ↔ .constraint stated ∈ entries := by
  rw [List.mem_filterMap]
  constructor
  · rintro ⟨entry, member, isConstraint⟩
    cases entry <;> cases isConstraint
    exact member
  · exact fun member => ⟨_, member, rfl⟩

theorem mem_filterMap_remark? {entries : List BodyEntry} {text : Text} :
    text ∈ entries.filterMap remark? ↔ .remark text ∈ entries := by
  rw [List.mem_filterMap]
  constructor
  · rintro ⟨entry, member, isRemark⟩
    cases entry <;> cases isRemark
    exact member
  · exact fun member => ⟨_, member, rfl⟩

/-- What the reader knows of an entry it returns. -/
def Canonical (options : ReadOptions) : BodyEntry → Prop
  | .column definition => definition.Canonical options
  | .constraint stated => options.skipConstraints = false ∧ stated.Plain
  | .remark text => Comment.Kept text ∧ readConstraint options text = .ok none

theorem readConstraint_of_read {text : Text} {result : Option TableConstraint}
    (read : TableConstraint.read text = .ok result) (options : ReadOptions) :
    readConstraint options text = .ok (if options.skipConstraints then none else result) := by
  rw [readConstraint, read]
  split <;> rfl

/-- Comment lines read for their constraints give those that they are recognised as. -/
theorem filterMap_of_readConstraint {skip : Bool} {lines : List Text}
    {stated : List (Option TableConstraint)}
    (found : lines.mapM (readConstraint { skipAnnotations := skip }) = .ok stated) :
    stated.filterMap id = lines.filterMap TableConstraint.stated? := by
  rw [mapM_eq_ok_iff] at found
  induction found with
  | nil => rfl
  | cons first _ ih =>
      have recognised := TableConstraint.stated?_of_read (eq_ok_of_mapError_eq_ok first)
      simp only [List.filterMap_cons, recognised, ih]
      rfl

/-- The lines written for constraints state those that have columns. -/
theorem mapM_readConstraint_render {constraints : List TableConstraint}
    (plain : ∀ constraint ∈ constraints, constraint.Plain) :
    (constraints.map TableConstraint.render).mapM (readConstraint {}) =
      .ok (constraints.map (Option.guard fun constraint => constraint.columns ≠ [])) := by
  rw [mapM_eq_ok_iff, List.forall₂_map_left_iff, List.forall₂_map_right_iff, List.forall₂_same]
  intro constraint member
  by_cases empty : constraint.columns = []
  · rw [Option.guard, if_neg (by simpa using empty)]
    exact readConstraint_of_read (TableConstraint.read_render_of_nil empty) {}
  · rw [Option.guard, if_pos (by simpa using empty)]
    exact readConstraint_of_read (TableConstraint.read_render empty
      fun name nameMem => ⟨(plain constraint member name nameMem).1,
        Identifier.unambiguous_of_free (plain constraint member name nameMem).2.2⟩) {}

theorem read_of_readConstraint {options : ReadOptions} {text : Text} {stated : TableConstraint}
    (found : readConstraint options text = .ok (some stated)) :
    options.skipConstraints = false ∧ TableConstraint.read text = .ok (some stated) := by
  unfold readConstraint at found
  split at found
  · cases found
  · next kept => exact ⟨by simpa using kept, eq_ok_of_mapError_eq_ok found⟩

theorem plain_of_readConstraint {options : ReadOptions} {text : Text} {stated : TableConstraint}
    (free : Text.LineFree text) (found : readConstraint options text = .ok (some stated)) :
    options.skipConstraints = false ∧ stated.Plain := by
  obtain ⟨kept, read⟩ := read_of_readConstraint found
  refine ⟨kept, ?_⟩
  intro name member
  obtain ⟨listed, subset⟩ := TableConstraint.listed_of_read read name member
  exact ⟨listed, free.mono subset⟩

theorem canonical_of_read {options : ReadOptions} {number : Int} {line : Text} {entry : BodyEntry}
    (free : Text.LineFree line) (found : read options number line = .ok entry) :
    entry.Canonical options := by
  unfold read at found
  split at found
  · have kept := Comment.kept_content free
    obtain ⟨stated?, constraint, found⟩ := exists_of_bind_eq_ok found
    cases stated? with
    | some stated =>
        cases found
        exact plain_of_readConstraint kept.free constraint
    | none =>
        cases found
        exact ⟨kept, constraint⟩
  · split at found
    · obtain ⟨column, read, found⟩ := exists_of_bind_eq_ok found
      cases found
      exact Column.canonical_of_read free read
    · cases found

theorem canonical_of_mapM {options : ReadOptions} {number : Int} {lines : List Text}
    {entries : List BodyEntry} (free : ∀ line ∈ lines, Text.LineFree line)
    (found : lines.mapM (read options number) = .ok entries) :
    ∀ entry ∈ entries, entry.Canonical options := by
  intro entry member
  obtain ⟨line, lineMem, read⟩ := exists_of_forall₂ (mapM_eq_ok_iff.mp found) member
  exact canonical_of_read (free line lineMem) read

end BodyEntry

/-! ## Tables -/

/-- What the reader knows of a table whose closing brace it has not read yet. -/
structure OpenTable.Canonical (options : ReadOptions) (table : OpenTable) : Prop where
  nameFree : Text.LineFree table.name
  metadata : ∀ line ∈ table.metadata, Comment.Kept line
  entries : ∀ entry ∈ table.entries, entry.Canonical options

/-- What the reader knows of a table it returns.  The constraints that its comment
lines state come first, and those stated inside it follow. -/
structure Table.Canonical (options : ReadOptions) (table : Table) : Prop where
  nameFree : Text.LineFree table.name
  metadata : ∀ line ∈ table.metadata, Comment.Kept line
  remarks : ∀ remark ∈ table.remarks,
    Comment.Kept remark ∧ BodyEntry.readConstraint options remark = .ok none
  columns : ∀ column ∈ table.columns, column.Canonical options
  annotations : table.annotations =
    if options.skipAnnotations then [] else Tag.readLines table.metadata
  constraints : ∃ stated inner, table.metadata.mapM (BodyEntry.readConstraint options) = .ok stated ∧
    table.constraints = stated.filterMap id ++ inner ∧
    (options.skipConstraints = true → inner = [])
  plain : ∀ constraint ∈ table.constraints, constraint.Plain

namespace OpenTable

variable {options : ReadOptions} {table : OpenTable}

theorem Canonical.append {entries : List BodyEntry} (canonical : table.Canonical options)
    (known : ∀ entry ∈ entries, entry.Canonical options) :
    OpenTable.Canonical options { table with entries := table.entries ++ entries } :=
  ⟨canonical.nameFree, canonical.metadata, List.forall_mem_append.mpr ⟨canonical.entries, known⟩⟩

theorem Canonical.close {closed : Table} (canonical : table.Canonical options)
    (found : table.close options = .ok closed) : closed.Canonical options := by
  obtain ⟨stated, read, found⟩ := exists_of_bind_eq_ok found
  cases found
  have inner : ∀ constraint ∈ table.entries.filterMap BodyEntry.constraint?,
      options.skipConstraints = false ∧ constraint.Plain := by
    intro constraint member
    exact canonical.entries _ (BodyEntry.mem_filterMap_constraint?.mp member)
  refine ⟨canonical.nameFree, canonical.metadata, ?_, ?_, rfl, ⟨stated, _, read, rfl, ?_⟩, ?_⟩
  · intro remark member
    exact canonical.entries _ (BodyEntry.mem_filterMap_remark?.mp member)
  · intro column member
    exact canonical.entries _ (BodyEntry.mem_filterMap_column?.mp member)
  · intro skip
    refine List.eq_nil_iff_forall_not_mem.mpr ?_
    intro constraint member
    rw [(inner constraint member).1] at skip
    cases skip
  · intro constraint member
    rcases List.mem_append.mp member with above | inside
    · obtain ⟨stated?, statedMem, isStated⟩ := List.mem_filterMap.mp above
      obtain ⟨line, lineMem, read⟩ := exists_of_forall₂ (mapM_eq_ok_iff.mp read) statedMem
      rw [show stated? = some constraint from isStated] at read
      exact (BodyEntry.plain_of_readConstraint (canonical.metadata line lineMem).free read).2
    · exact (inner constraint inside).2

end OpenTable

/-- What the reader knows of a schema it returns. -/
structure Schema.Canonical (options : ReadOptions) (schema : Schema) : Prop where
  tables : ∀ table ∈ schema.tables, table.Canonical options
  metadata : ∀ line ∈ schema.metadata, Comment.Kept line
  annotations : schema.annotations =
    if options.skipAnnotations then [] else Tag.readLines schema.metadata

/-! ## The reader of a document -/

namespace Progress

/-- What the reader knows at the place where it stands. -/
def PlaceCanonical (options : ReadOptions) : Place → Prop
  | .between pending => ∀ line ∈ pending, Comment.Kept line
  | .inside table => table.Canonical options

/-- What the reader knows of all that it has read so far. -/
structure Canonical (options : ReadOptions) (progress : Progress) : Prop where
  tables : ∀ table ∈ progress.tables, table.Canonical options
  metadata : ∀ line ∈ progress.metadata, Comment.Kept line
  place : PlaceCanonical options progress.place

theorem canonical_start (options : ReadOptions) : Canonical options {} :=
  ⟨List.forall_mem_nil _, List.forall_mem_nil _, List.forall_mem_nil _⟩

variable {options : ReadOptions} {progress next : Progress}

theorem canonical_opened {number : Int} {line : Text} {pending : List Text}
    {opening : Interface.Opening} {entries : List BodyEntry} (free : Text.LineFree line)
    (kept : ∀ text ∈ pending, Comment.Kept text)
    (opens : Interface.opening? line = some opening)
    (read : opening.segments.mapM (BodyEntry.read options number) = .ok entries) :
    (opened number line pending opening entries).Canonical options := by
  obtain ⟨nameSubset, body, within, segments⟩ := Interface.exists_body_of_opening? opens
  refine ⟨free.mono nameSubset, kept, BodyEntry.canonical_of_mapM ?_ read⟩
  rw [segments]
  exact fun _ => Body.lineFree_of_mem_segments (free.mono within.subset)

theorem Canonical.closed {table : OpenTable} {closed : Table}
    (invariant : progress.Canonical options)
    (canonical : table.Canonical options) (close : table.close options = .ok closed) :
    Canonical options {
      tables := progress.tables ++ [closed], metadata := progress.metadata, place := .between [] } :=
  ⟨List.forall_mem_append.mpr ⟨invariant.tables,
      List.forall_mem_singleton.mpr (canonical.close close)⟩,
    invariant.metadata, List.forall_mem_nil _⟩

/-- A line keeps the reader in order. -/
theorem Canonical.step {number : Int} {line : Text} (invariant : progress.Canonical options)
    (free : Text.LineFree line) (step : Step options number line progress next) :
    next.Canonical options := by
  cases step with
  | blank _ =>
      exact ⟨invariant.tables, List.forall_mem_append.mpr ⟨invariant.metadata, invariant.place⟩,
        List.forall_mem_nil _⟩
  | comment _ =>
      exact ⟨invariant.tables, invariant.metadata, List.forall_mem_append.mpr ⟨invariant.place,
        List.forall_mem_singleton.mpr (Comment.kept_content free)⟩⟩
  | oneLine opens _ read close =>
      exact invariant.closed (canonical_opened free invariant.place opens read) close
  | opens opens _ read =>
      exact ⟨invariant.tables, invariant.metadata, canonical_opened free invariant.place opens read⟩
  | closes _ close => exact invariant.closed invariant.place close
  | skips _ => exact invariant
  | entry _ _ read =>
      have known := BodyEntry.canonical_of_read (free.mono (Text.trim_subset line)) read
      exact ⟨invariant.tables, invariant.metadata,
        OpenTable.Canonical.append invariant.place (List.forall_mem_singleton.mpr known)⟩

theorem canonical_readLines {number : Int} {lines : List Text}
    (invariant : progress.Canonical options) (free : ∀ line ∈ lines, Text.LineFree line)
    (run : readLines options progress number lines = .ok next) : next.Canonical options := by
  induction lines generalizing progress number with
  | nil =>
      cases run
      exact invariant
  | cons line lines ih =>
      obtain ⟨middle, step, run⟩ := exists_of_bind_eq_ok run
      exact ih (invariant.step (free line (by simp)) (step_of_readLine step))
        (fun other member => free other (List.mem_cons_of_mem line member)) run

end Progress

/-- Whatever a document is read as, its columns can be written and its facts are those
that its comment lines state. -/
theorem Schema.canonical_of_read {options : ReadOptions} {text : Text} {schema : Schema}
    (found : Schema.read options text = .ok schema) : schema.Canonical options := by
  obtain ⟨tables, metadata, pending, run, rfl⟩ := Schema.exists_of_read found
  have known := Progress.canonical_readLines (Progress.canonical_start options)
    (fun _ => Text.lineFree_of_mem_lines) run
  exact ⟨known.tables, List.forall_mem_append.mpr ⟨known.metadata, known.place⟩, rfl⟩

end SchemaNotation
