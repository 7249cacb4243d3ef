import SchemaNotation.Proofs.ColumnOrder
import SchemaNotation.Proofs.Render

/-!
# Round trips

A document is read, written and read again.  The second schema has the columns, the
remarks and the comment lines of the first, and the constraints that stood inside a
table now stand above it.  Writing it once more gives the same text.
-/

namespace SchemaNotation

namespace Table

/-- A metadata line of the table states the constraint. -/
def States (table : Table) (constraint : TableConstraint) : Prop :=
  ∃ line ∈ table.metadata, TableConstraint.read line = .ok (some constraint)

instance (table : Table) (constraint : TableConstraint) : Decidable (table.States constraint) :=
  inferInstanceAs (Decidable (∃ line ∈ table.metadata, _ = _))

/-- What a round trip keeps of a table: everything, except that the constraints no
metadata line states become metadata lines.  The columns may be sorted. -/
structure Kept (layout : Layout) (table second : Table) : Prop where
  name : second.name = table.name
  remarks : second.remarks = table.remarks
  metadata : second.metadata = table.metadata ++
    (table.constraints.filter fun constraint => ¬table.States constraint).map TableConstraint.render
  columns : second.columns =
    if layout.sortColumns then Column.sortByRank table.columns else table.columns

variable {options : ReadOptions} {layout : Layout} {table second : Table}

/-! ## What the metadata of a table state -/

theorem states_iff {stated : List (Option TableConstraint)}
    (read : table.metadata.mapM TableConstraint.read = .ok stated) {constraint : TableConstraint} :
    some constraint ∈ stated ↔ table.States constraint := by
  rw [mapM_eq_ok_iff] at read
  constructor
  · intro member
    exact exists_of_forall₂ read member
  · rintro ⟨line, lineMem, states⟩
    obtain ⟨result, resultMem, found⟩ := exists_of_forall₂ read.flip lineMem
    rw [show TableConstraint.read line = .ok result from found] at states
    exact Except.ok.inj states ▸ resultMem

theorem unstated_eq {unstated : List TableConstraint}
    (found : table.unstatedConstraints = .ok unstated) :
    unstated = table.constraints.filter fun constraint => ¬table.States constraint := by
  obtain ⟨stated, read, found⟩ := exists_of_bind_eq_ok found
  cases found
  apply List.filter_congr
  intro constraint _
  simp [← states_iff read]

theorem unstatedConstraints_of_states {stated : List (Option TableConstraint)}
    (read : table.metadata.mapM TableConstraint.read = .ok stated)
    (states : ∀ constraint ∈ table.constraints, table.States constraint) :
    table.unstatedConstraints = .ok [] := by
  have found : table.unstatedConstraints =
      .ok (table.constraints.filter fun constraint => !stated.contains (some constraint)) := by
    rw [unstatedConstraints, read]
    rfl
  rw [found, List.filter_eq_nil_iff.mpr]
  intro constraint member
  simp [states_iff read, states constraint member]

/-- The metadata of a table that was read state its annotations. -/
theorem Canonical.unstatedAnnotations_eq (canonical : table.Canonical options) :
    table.unstatedAnnotations = [] := by
  rw [unstatedAnnotations, canonical.annotations, List.filter_eq_nil_iff]
  intro tag member
  split at member
  · cases member
  · simp [member]

theorem Canonical.heading_eq (canonical : table.Canonical options)
    (unstated : List TableConstraint) :
    table.heading unstated = table.metadata ++ unstated.map TableConstraint.render := by
  rw [heading, canonical.unstatedAnnotations_eq]
  rfl

theorem Canonical.writable (canonical : table.Canonical options) : table.Writable options where
  nameFree := canonical.nameFree
  annotations := by
    rw [canonical.unstatedAnnotations_eq]
    exact List.forall_mem_nil _
  metadata := canonical.metadata
  constraints := fun constraint member name nameMem =>
    (canonical.plain constraint member name nameMem).2
  remarks := canonical.remarks
  columns := by
    intro column member
    have known := canonical.columns column member
    rw [known.trailingComment?_eq]
    exact ⟨known.writable, known.fits⟩

theorem Canonical.columns_eq (canonical : table.Canonical options) :
    (table.writtenColumns layout).map (Column.reread options) = table.writtenColumns layout := by
  conv_rhs => rw [← List.map_id (table.writtenColumns layout)]
  apply List.map_congr_left
  intro column member
  exact (canonical.columns column (mem_writtenColumns.mp member)).reread_eq

theorem Canonical.kept (canonical : table.Canonical options)
    (readAs : table.ReadAs options layout second) : Kept layout table second := by
  obtain ⟨unstated, stated, found, _, rfl⟩ := readAs
  refine ⟨rfl, rfl, ?_, canonical.columns_eq⟩
  rw [← unstated_eq found]
  exact canonical.heading_eq unstated

/-- A metadata line that is read as a constraint states it. -/
theorem states_of_mem_stated {stated : List (Option TableConstraint)}
    (read : table.metadata.mapM (BodyEntry.readConstraint options) = .ok stated)
    {constraint : TableConstraint} (member : constraint ∈ stated.filterMap id) :
    table.States constraint := by
  obtain ⟨result, resultMem, isConstraint⟩ := List.mem_filterMap.mp member
  obtain ⟨line, lineMem, found⟩ := exists_of_forall₂ (mapM_eq_ok_iff.mp read) resultMem
  rw [show result = some constraint from isConstraint] at found
  exact ⟨line, lineMem, (BodyEntry.read_of_readConstraint found).2⟩

/-- Whatever constraint the written table is read with, its metadata state it. -/
theorem ReadAs.states (readAs : table.ReadAs options layout second) :
    ∀ constraint ∈ second.constraints, second.States constraint := by
  obtain ⟨unstated, stated, _, read, rfl⟩ := readAs
  intro constraint member
  exact states_of_mem_stated read member

/-! ## Writing a second time -/

/-- Columns that have been sorted stay where they are. -/
theorem Kept.writtenColumns_eq (kept : Kept layout table second) :
    second.writtenColumns layout = table.writtenColumns layout := by
  rw [writtenColumns, kept.columns, writtenColumns]
  split
  · exact Column.sortByRank_sortByRank table.columns
  · rfl

/-- The table that was read from the lines of a table is written with the same lines as long
as those inside it are the same. -/
theorem ReadAs.renderLines_eq (readAs : table.ReadAs options layout second)
    (writable : table.Writable options) (canonical : second.Canonical options)
    (inside : second.body layout = table.body layout) :
    second.renderLines layout = table.renderLines layout := by
  have states := readAs.states
  obtain ⟨unstated, stated, found, _, rfl⟩ := readAs
  have tagged : ∀ tag ∈ table.unstatedAnnotations, Text.Trimmed tag.render :=
    fun tag member => (writable.annotations tag member).trimmed
  obtain ⟨read, success⟩ := exists_read_heading tagged found
  have nothing := unstatedConstraints_of_states success states
  have heading : (table.reread options layout unstated stated).heading [] =
      table.heading unstated := by
    rw [canonical.heading_eq, List.map_nil, List.append_nil]
    rfl
  have silent : ∀ tag ∈ (table.reread options layout unstated stated).unstatedAnnotations,
      Text.Trimmed tag.render := by
    rw [canonical.unstatedAnnotations_eq]
    exact List.forall_mem_nil _
  rw [Table.renderLines_eq tagged found, Table.renderLines_eq silent nothing, inside, heading]
  rfl

/-- The table that was read from the lines of a table is written with the same lines. -/
theorem Canonical.renderLines_eq (canonical : table.Canonical options)
    (readAs : table.ReadAs options layout second) (secondCanonical : second.Canonical options) :
    second.renderLines layout = table.renderLines layout := by
  have kept := canonical.kept readAs
  apply readAs.renderLines_eq canonical.writable secondCanonical
  rw [body, body, kept.writtenColumns_eq, kept.remarks]

/-! ## The constraints and annotations of a table -/

/-- The constraints that the metadata lines of a table state, in order. -/
def statedConstraints (table : Table) : List TableConstraint :=
  table.metadata.filterMap fun line =>
    match TableConstraint.read line with
    | .ok stated => stated
    | .error _ => none

/-- The lines written for the constraints of a table that no metadata line states. -/
def addedLines (table : Table) : List Text :=
  (table.constraints.filter fun constraint => ¬table.States constraint).map TableConstraint.render

/-- What a round trip keeps of the constraints and annotations of a table.  The
constraints that stood inside it follow those that its metadata lines state.  One that a
metadata line states already is not repeated, and one without columns states nothing. -/
structure FactsKept (table second : Table) : Prop where
  constraints : ∃ inner, table.constraints = table.statedConstraints ++ inner ∧
    second.constraints = table.statedConstraints ++
      inner.filter fun constraint => constraint.columns ≠ [] ∧ ¬table.States constraint
  annotations : second.annotations = table.annotations ++ Tag.readLines table.addedLines
  silent : (∀ constraint ∈ table.constraints, ¬table.States constraint →
      ∀ name ∈ constraint.columns, Tag.Silent name) →
    Tag.readLines table.addedLines = []

theorem statedConstraints_eq {stated : List (Option TableConstraint)}
    (read : table.metadata.mapM (BodyEntry.readConstraint {}) = .ok stated) :
    table.statedConstraints = stated.filterMap id :=
  (BodyEntry.filterMap_of_readConstraint read).symm

/-- Column names without annotations in them bring none above the table. -/
theorem Canonical.readLines_addedLines (canonical : table.Canonical options)
    (silent : ∀ constraint ∈ table.constraints, ¬table.States constraint →
      ∀ name ∈ constraint.columns, Tag.Silent name) :
    Tag.readLines table.addedLines = [] := by
  rw [Tag.readLines, List.flatMap_eq_nil_iff]
  intro line member
  obtain ⟨constraint, constraintMem, rfl⟩ := List.mem_map.mp member
  rw [List.mem_filter] at constraintMem
  apply Tag.readAll_of_silent
  apply Tag.silent_tableConstraint
  · intro name nameMem
    exact (canonical.plain constraint constraintMem.1 name nameMem).2.2
  · exact silent constraint constraintMem.1 (by simpa using constraintMem.2)

theorem Canonical.factsKept (canonical : table.Canonical {})
    (readAs : table.ReadAs {} layout second) : FactsKept table second := by
  obtain ⟨stated, inner, read, parts, _⟩ := canonical.constraints
  obtain ⟨unstated, restated, found, readHeading, rfl⟩ := readAs
  have unstatedShape := unstated_eq found
  constructor
  · refine ⟨inner, by rw [statedConstraints_eq read, parts], ?_⟩
    -- What the metadata lines state is left out, so only the inner constraints remain.
    have remaining : unstated = inner.filter fun constraint => ¬table.States constraint := by
      rw [unstatedShape, parts, List.filter_append, List.filter_eq_nil_iff.mpr, List.nil_append]
      intro constraint member
      simpa using states_of_mem_stated read member
    have added := BodyEntry.mapM_readConstraint_render
      fun constraint member => canonical.plain constraint (mem_unstated found member)
    have whole := mapM_append_eq_ok read added
    rw [← canonical.heading_eq, readHeading] at whole
    change restated.filterMap id = _
    rw [Except.ok.inj whole, statedConstraints_eq read, List.filterMap_append,
      List.filterMap_map, Function.id_comp, List.filterMap_eq_filter, remaining, List.filter_filter]
    simp
  · rw [canonical.annotations]
    change Tag.readLines (table.heading unstated) = Tag.readLines table.metadata ++ _
    rw [canonical.heading_eq, unstatedShape, Tag.readLines, List.flatMap_append]
    rfl
  · exact canonical.readLines_addedLines

/-- A table that was read with its constraints can be written. -/
theorem Canonical.exists_unstated (canonical : table.Canonical {}) :
    ∃ unstated, table.unstatedConstraints = .ok unstated := by
  obtain ⟨stated, _, read, _, _⟩ := canonical.constraints
  have success : table.metadata.mapM TableConstraint.read = .ok stated := by
    rw [mapM_eq_ok_iff] at read ⊢
    exact read.imp fun _ _ => eq_ok_of_mapError_eq_ok
  rw [unstatedConstraints, success]
  exact ⟨_, rfl⟩

end Table

/-! ## Reading what was written for a document -/

section Orders

/-- A document with a constraint above a table and another one inside it. -/
def ordersText : Text :=
  "// @owner: sales\n\n// UNIQUE(id, code)\ninterface Order \x7b
  // one row each
  code: 'open' | 'paid';
  id: int; // PK, @unit: key
  // INDEX(code)\n\x7d\n".toList

/-- What the document is read as. -/
def orders : Schema where
  tables := [{
    name := "Order".toList
    columns := [
      { name := "code".toList, type := .union [.string "open".toList, .string "paid".toList] },
      { name := "id".toList
        type := .simple "int".toList none false
        constraints := [.primaryKey]
        annotations := [⟨"unit".toList, "key".toList⟩]
        comment := some "PK, @unit: key".toList }]
    constraints := [⟨.unique, ["id".toList, "code".toList]⟩, ⟨.index, ["code".toList]⟩]
    metadata := ["UNIQUE(id, code)".toList]
    remarks := ["one row each".toList] }]
  metadata := ["@owner: sales".toList]
  annotations := [⟨"owner".toList, "sales".toList⟩]

/-- What is written for the document when its columns keep their order. -/
def ordersWritten : Text :=
  "// @owner: sales\n\n// UNIQUE(id, code)\n// INDEX(code)\ninterface Order \x7b
  // one row each
  code: 'open' | 'paid';
  id: int;                                   // PK, @unit: key\n\x7d\n".toList

/-- The layout in which the document is written. -/
def ordersLayout : Layout where
  sortColumns := false

set_option maxRecDepth 1000 in
theorem read_ordersText : Schema.read {} ordersText = .ok orders := by
  -- Decoding the literal takes the kernel longer than reading its characters.
  have chars : ordersText = _ := String.toList_ofList
  rw [chars]
  decide +kernel

set_option maxRecDepth 1000 in
theorem render_orders : orders.render ordersLayout = .ok ordersWritten := by
  have chars : ordersWritten = _ := String.toList_ofList
  rw [chars]
  decide +kernel

end Orders

/-- A document that is read and written is read again, with the same comment lines,
annotations and tables. -/
theorem Schema.rereads_structure {options : ReadOptions} {layout : Layout} {text written : Text}
    {schema : Schema} (read : Schema.read options text = .ok schema)
    (rendered : schema.render layout = .ok written) :
    ∃ second, Schema.read options written = .ok second ∧ second.metadata = schema.metadata ∧
      second.annotations = schema.annotations ∧
      List.Forall₂ (Table.Kept layout) schema.tables second.tables := by
  have canonical := Schema.canonical_of_read read
  obtain ⟨second, reread, metadata, annotations, tables⟩ := Schema.read_render canonical.metadata
    (fun table member => (canonical.tables table member).writable) rendered
  refine ⟨second, reread, metadata, annotations.trans canonical.annotations.symm, ?_⟩
  exact ((List.forall₂_and_left _ _).mpr ⟨canonical.tables, tables⟩).imp
    fun table second ⟨known, readAs⟩ => known.kept readAs

theorem Schema.rereads_structure_orders :
    Schema.read {} ordersText = .ok orders ∧ orders.render ordersLayout = .ok ordersWritten ∧
      ∃ second, Schema.read {} ordersWritten = .ok second ∧ second.metadata = orders.metadata ∧
        second.annotations = orders.annotations ∧
        List.Forall₂ (Table.Kept ordersLayout) orders.tables second.tables :=
  ⟨read_ordersText, render_orders, Schema.rereads_structure read_ordersText render_orders⟩

/-- Reading the text written for a document gives a schema that is written with exactly
the same text. -/
theorem Schema.rerenders_text {options : ReadOptions} {layout : Layout} {text written : Text}
    {schema : Schema} (read : Schema.read options text = .ok schema)
    (rendered : schema.render layout = .ok written) :
    ∃ second, Schema.read options written = .ok second ∧ second.render layout = .ok written := by
  have canonical := Schema.canonical_of_read read
  obtain ⟨second, reread, metadata, _, tables⟩ := Schema.read_render canonical.metadata
    (fun table member => (canonical.tables table member).writable) rendered
  have secondCanonical := Schema.canonical_of_read reread
  have same : List.Forall₂ (fun table second => Table.render layout second = Table.render layout table)
      schema.tables second.tables := by
    have known := (List.forall₂_and_left _ _).mpr ⟨canonical.tables, tables⟩
    have both := (List.forall₂_and_left _ _).mpr ⟨secondCanonical.tables, known.flip⟩
    refine both.flip.imp ?_
    rintro table second ⟨secondKnown, tableKnown, readAs⟩
    rw [Table.render, Table.render, tableKnown.renderLines_eq readAs secondKnown]
  refine ⟨second, reread, ?_⟩
  rw [Schema.render, metadata, mapM_eq_of_forall₂ same]
  exact rendered

theorem Schema.rerenders_text_orders :
    Schema.read {} ordersText = .ok orders ∧ orders.render ordersLayout = .ok ordersWritten ∧
      ∃ second, Schema.read {} ordersWritten = .ok second ∧
        second.render ordersLayout = .ok ordersWritten :=
  ⟨read_ordersText, render_orders, Schema.rerenders_text read_ordersText render_orders⟩

/-- A document that is read can be written, and reading the text gives tables with the
same constraints, less the repeated ones and those without columns, and with the same
annotations and those in the lines that moved above the table. -/
theorem Schema.rereads_facts {text : Text} {schema : Schema} (layout : Layout)
    (read : Schema.read {} text = .ok schema) :
    ∃ written second, schema.render layout = .ok written ∧ Schema.read {} written = .ok second ∧
      List.Forall₂ Table.FactsKept schema.tables second.tables := by
  have canonical := Schema.canonical_of_read read
  obtain ⟨written, rendered⟩ := Schema.exists_render layout
    fun table member => (canonical.tables table member).exists_unstated
  obtain ⟨second, reread, _, _, tables⟩ := Schema.read_render canonical.metadata
    (fun table member => (canonical.tables table member).writable) rendered
  refine ⟨written, second, rendered, reread, ?_⟩
  exact ((List.forall₂_and_left _ _).mpr ⟨canonical.tables, tables⟩).imp
    fun table second ⟨known, readAs⟩ => known.factsKept readAs

theorem Schema.rereads_facts_orders :
    Schema.read {} ordersText = .ok orders ∧
      ∃ written second, orders.render ordersLayout = .ok written ∧
        Schema.read {} written = .ok second ∧
        List.Forall₂ Table.FactsKept orders.tables second.tables :=
  ⟨read_ordersText, Schema.rereads_facts ordersLayout read_ordersText⟩

/-- A constraint that stands above a table and inside it is read twice at first and once
from then on. -/
theorem Schema.repeated_constraint_dropped :
    ¬∀ text schema written second, Schema.read {} text = .ok schema →
      schema.render {} = .ok written → Schema.read {} written = .ok second →
      second.tables.map Table.constraints = schema.tables.map Table.constraints := by
  intro same
  have kept := same
    "// UNIQUE(a, b)\ninterface T \x7b\n// UNIQUE(a, b)\na: int;\n\x7d".toList
    { tables := [{
        name := "T".toList
        columns := [{ name := "a".toList, type := .simple "int".toList none false }]
        constraints := [⟨.unique, ["a".toList, "b".toList]⟩, ⟨.unique, ["a".toList, "b".toList]⟩]
        metadata := ["UNIQUE(a, b)".toList] }] }
    "// UNIQUE(a, b)\ninterface T \x7b\n  a: int;\n\x7d\n".toList
    { tables := [{
        name := "T".toList
        columns := [{ name := "a".toList, type := .simple "int".toList none false }]
        constraints := [⟨.unique, ["a".toList, "b".toList]⟩]
        metadata := ["UNIQUE(a, b)".toList] }] }
    (by decide +kernel) (by decide +kernel) (by decide +kernel)
  exact absurd kept (by decide +kernel)

end SchemaNotation
