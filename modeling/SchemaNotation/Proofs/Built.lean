import SchemaNotation.Proofs.Render
import SchemaNotation.Proofs.StatedComment

/-!
# Built schemas read back

A schema that was built, not read, has no comment lines and no comments.  What is
written for it states its constraints and annotations, so they are read back together
with its tables and columns.
-/

namespace SchemaNotation

namespace Column

/-! ## Columns -/

/-- A column that was built: it has no comment of its own, and everything that is known
of it can be written. -/
structure Built (column : Column) : Prop where
  nameFree : Text.LineFree column.name
  nameClear : apostrophe ∉ column.name
  noSlashes : ¬"//".toList <:+: column.name
  typed : ∃ text, ColumnType.read text = .ok (some column.type)
  typeFree : ∀ string ∈ column.type.strings, Text.LineFree string
  distinct : (column.constraints.map Constraint.kindName).Nodup
  constraints : ∀ constraint ∈ column.constraints, constraint.Statable
  annotations : ∀ tag ∈ column.annotations, tag.Readable
  neutral : Constraint.TagsNeutral column.annotations
  comment : column.comment = none

instance (column : Column) : Decidable column.Built :=
  decidable_of_iff (Text.LineFree column.name ∧ apostrophe ∉ column.name ∧
      ¬"//".toList <:+: column.name ∧ ColumnType.read column.type.render = .ok (some column.type) ∧
      (∀ string ∈ column.type.strings, Text.LineFree string) ∧
      (column.constraints.map Constraint.kindName).Nodup ∧
      (∀ constraint ∈ column.constraints, constraint.Statable) ∧
      (∀ tag ∈ column.annotations, tag.Readable) ∧ Constraint.TagsNeutral column.annotations ∧
      column.comment = none) (by
    constructor
    · rintro ⟨free, clear, noSlashes, read, typeFree, distinct, constraints, tags, neutral, comment⟩
      exact ⟨free, clear, noSlashes, ⟨_, read⟩, typeFree, distinct, constraints, tags, neutral,
        comment⟩
    · rintro ⟨free, clear, noSlashes, ⟨text, read⟩, typeFree, distinct, constraints, tags, neutral,
        comment⟩
      exact ⟨free, clear, noSlashes, ColumnType.read_render (ColumnType.valid_of_read read), typeFree,
        distinct, constraints, tags, neutral, comment⟩)

/-- What reading keeps of a built column.  Its constraints come back in the order of
their kinds, and its annotations unless a constraint has one in its free text. -/
structure Restated (column second : Column) : Prop where
  name : second.name = column.name
  type : second.type = column.type
  nullable : second.nullable = column.nullable
  comment : second.comment = column.statedComment?
  constraints : second.constraints.Perm column.constraints
  increasing : second.constraints.Pairwise fun first next => first.readRank < next.readRank
  annotations : (∀ constraint ∈ column.constraints, ∀ text ∈ constraint.payload,
      Tag.Silent text) →
    second.annotations = column.annotations

variable {column : Column}

/-- The constraints of a column in the order in which a comment states them. -/
def inOrder (constraints : List Constraint) : List Constraint :=
  constraints.mergeSort fun first second => first.rank ≤ second.rank

theorem statedComment?_eq (column : Column) :
    column.statedComment? =
      if Constraint.facts (inOrder column.constraints) column.annotations = [] then none
      else some (Constraint.comment (inOrder column.constraints) column.annotations) := by
  unfold statedComment? inOrder Constraint.comment
  dsimp only
  rw [← Constraint.map_text_facts]
  cases Constraint.facts _ column.annotations with
  | nil => rfl
  | cons fact facts =>
      rw [if_neg (List.cons_ne_nil fact facts)]
      rfl

/-- The comment that states a column is not empty and starts with no blank. -/
theorem opens_statedComment? {comment : Text} (stated : column.statedComment? = some comment) :
    comment ≠ [] ∧ Text.Stops isBlank comment := by
  rw [statedComment?_eq] at stated
  split at stated
  · cases stated
  · next filled =>
      cases stated
      obtain ⟨fact, others, shape⟩ := List.exists_cons_of_ne_nil filled
      obtain ⟨rest, joined, _⟩ := Constraint.comment_starts shape
      obtain ⟨c, more, opens, member⟩ := fact.opens
      rw [joined, opens, List.cons_append]
      exact ⟨by simp, Text.stops_cons.mpr (Constraint.clear_starts c member).1⟩

namespace Built

theorem trailingComment?_eq (built : column.Built) :
    column.trailingComment? = column.statedComment? := by
  rw [trailingComment?, built.comment]

theorem writable (built : column.Built) : column.Writable where
  nameFree := built.nameFree
  nameQuiet := Comment.quiet_of_no_slashes built.noSlashes built.nameClear
  typeValid := by
    obtain ⟨text, read⟩ := built.typed
    exact ColumnType.valid_of_read read
  typeFree := built.typeFree
  typeQuiet := by
    rw [Comment.endsInLiteral_of_not_mem built.nameClear]
    intro inside
    cases inside

theorem statable_inOrder (built : column.Built) :
    ∀ constraint ∈ inOrder column.constraints, constraint.Statable := by
  intro constraint member
  exact built.constraints constraint (List.mem_mergeSort.mp member)

theorem recognisable_inOrder (built : column.Built) :
    ∀ constraint ∈ inOrder column.constraints, constraint.Recognisable :=
  fun constraint member => (built.statable_inOrder constraint member).recognisable

theorem fits (built : column.Built) :
    ∀ comment, column.trailingComment? = some comment → column.Fits comment := by
  intro comment stated
  rw [built.trailingComment?_eq, statedComment?_eq] at stated
  split at stated
  · cases stated
  · next filled =>
      cases stated
      have trimmed := Constraint.trimmed_comment built.recognisable_inOrder built.annotations filled
      constructor
      · exact trimmed.1
      · exact trimmed.2
      · exact Constraint.lineFree_comment
          (fun constraint member => (built.statable_inOrder constraint member).lineFree)
          (fun tag member => Tag.lineFree_render (built.annotations tag member).lineFree)
      · exact Comment.endsInLiteral_of_not_mem built.nameClear false

/-- Reading a built column gives back what is known of it. -/
theorem restated (built : column.Built) : column.Restated (column.reread {}) := by
  have sorted : (inOrder column.constraints).Perm column.constraints := List.mergeSort_perm ..
  have distinct : ((inOrder column.constraints).map Constraint.kindName).Nodup :=
    (sorted.map Constraint.kindName).nodup_iff.mpr built.distinct
  have read := Constraint.readAll_comment_perm built.recognisable_inOrder built.neutral distinct
  have tagged := Constraint.readAll_tags_comment built.recognisable_inOrder built.annotations
  -- A column without facts has no comment, and nothing is read from the empty text.
  have stated : column.statedComment?.getD [] =
      Constraint.comment (inOrder column.constraints) column.annotations := by
    rw [statedComment?_eq]
    split
    · next empty =>
        rw [Constraint.comment, empty]
        rfl
    · rfl
  rw [← stated] at read tagged
  have shape : column.reread {} = { column with
      comment := column.statedComment?
      constraints := Constraint.readAll (column.statedComment?.getD [])
      annotations := Tag.readAll (column.statedComment?.getD []) } := by
    rw [reread, built.trailingComment?_eq]
    rfl
  rw [shape]
  constructor
  · rfl
  · rfl
  · rfl
  · rfl
  · exact read.trans sorted
  · exact (Constraint.ordered_readAll _).increasing
  · intro silent
    apply tagged
    intro constraint member
    exact silent constraint (sorted.subset member)

end Built

end Column

namespace Table

/-! ## Tables -/

/-- A table that was built: it has no comment lines, and its constraints and annotations
can be written as such lines. -/
structure Built (table : Table) : Prop where
  nameFree : Text.LineFree table.name
  columns : ∀ column ∈ table.columns, column.Built
  filled : ∀ constraint ∈ table.constraints, constraint.columns ≠ []
  plain : ∀ constraint ∈ table.constraints, constraint.Plain
  unmarked : ∀ constraint ∈ table.constraints, ∀ name ∈ constraint.columns, '@' ∉ name
  annotations : ∀ tag ∈ table.annotations, tag.Readable
  metadata : table.metadata = []
  remarks : table.remarks = []

instance (table : Table) : Decidable table.Built :=
  decidable_of_iff (Text.LineFree table.name ∧ (∀ column ∈ table.columns, column.Built) ∧
      (∀ constraint ∈ table.constraints, constraint.columns ≠ [] ∧ constraint.Plain ∧
        ∀ name ∈ constraint.columns, '@' ∉ name) ∧
      (∀ tag ∈ table.annotations, tag.Readable) ∧ table.metadata = [] ∧ table.remarks = []) (by
    constructor
    · rintro ⟨free, columns, constraints, tags, metadata, remarks⟩
      exact ⟨free, columns, fun constraint member => (constraints constraint member).1,
        fun constraint member => (constraints constraint member).2.1,
        fun constraint member => (constraints constraint member).2.2, tags, metadata, remarks⟩
    · rintro ⟨free, columns, filled, plain, unmarked, tags, metadata, remarks⟩
      exact ⟨free, columns, fun constraint member => ⟨filled constraint member,
        plain constraint member, unmarked constraint member⟩, tags, metadata, remarks⟩)

/-- What reading keeps of a built table.  Its comment lines state its annotations and its
constraints, and its columns are those of the table, which may be sorted. -/
structure Restated (layout : Layout) (table second : Table) : Prop where
  name : second.name = table.name
  columns : List.Forall₂ Column.Restated
    (if layout.sortColumns then Column.sortByRank table.columns else table.columns) second.columns
  constraints : second.constraints = table.constraints
  annotations : second.annotations = table.annotations
  metadata : second.metadata =
    table.annotations.map Tag.render ++ table.constraints.map TableConstraint.render
  remarks : second.remarks = []

namespace Built

variable {table : Table}

theorem unstatedAnnotations_eq (built : table.Built) :
    table.unstatedAnnotations = table.annotations := by
  rw [unstatedAnnotations, built.metadata, List.filter_eq_self]
  intro tag _
  rfl

theorem unstatedConstraints_eq (built : table.Built) :
    table.unstatedConstraints = .ok table.constraints := by
  have all : table.constraints.filter (fun constraint =>
      !([] : List (Option TableConstraint)).contains (some constraint)) = table.constraints := by
    rw [List.filter_eq_self]
    intro constraint _
    rfl
  rw [unstatedConstraints, built.metadata]
  exact congrArg Except.ok all

theorem heading_eq (built : table.Built) :
    table.heading table.constraints =
      table.annotations.map Tag.render ++ table.constraints.map TableConstraint.render := by
  rw [heading, built.unstatedAnnotations_eq, built.metadata, List.append_nil]

theorem writable (built : table.Built) : table.Writable {} where
  nameFree := built.nameFree
  annotations := by
    intro tag member
    rw [built.unstatedAnnotations_eq] at member
    have readable := built.annotations tag member
    exact ⟨Tag.trimmed_render readable, Tag.lineFree_render readable.lineFree⟩
  metadata := by
    rw [built.metadata]
    exact List.forall_mem_nil _
  constraints := by
    intro constraint member name nameMem
    exact (built.plain constraint member name nameMem).2
  remarks := by
    rw [built.remarks]
    exact List.forall_mem_nil _
  columns := by
    intro column member
    exact ⟨(built.columns column member).writable, (built.columns column member).fits⟩

/-- The comment lines of a built table state its constraints and nothing else. -/
theorem mapM_heading (built : table.Built) :
    (table.heading table.constraints).mapM (BodyEntry.readConstraint {}) =
      .ok (table.annotations.map (fun _ => none) ++ table.constraints.map some) := by
  have tagged : (table.annotations.map Tag.render).mapM (BodyEntry.readConstraint {}) =
      .ok (table.annotations.map fun _ => none) := by
    rw [mapM_eq_ok_iff, List.forall₂_map_left_iff, List.forall₂_map_right_iff, List.forall₂_same]
    intro tag member
    have trimmed := Tag.trimmed_render (built.annotations tag member)
    exact BodyEntry.readConstraint_of_read (TableConstraint.read_at trimmed) {}
  have filled : table.constraints.map (Option.guard fun constraint => constraint.columns ≠ []) =
      table.constraints.map some := by
    apply List.map_congr_left
    intro constraint member
    rw [Option.guard, if_pos (by simpa using built.filled constraint member)]
  rw [built.heading_eq, ← filled]
  exact mapM_append_eq_ok tagged (BodyEntry.mapM_readConstraint_render built.plain)

/-- The comment lines of a built table state its annotations and nothing else. -/
theorem readLines_heading (built : table.Built) :
    Tag.readLines (table.heading table.constraints) = table.annotations := by
  have tagged := Tag.readLines_render built.annotations
  have silent : Tag.readLines (table.constraints.map TableConstraint.render) = [] := by
    rw [Tag.readLines, List.flatMap_eq_nil_iff]
    intro line member
    obtain ⟨constraint, constraintMem, rfl⟩ := List.mem_map.mp member
    apply Tag.readAll_of_silent
    apply Tag.silent_tableConstraint
    · intro name nameMem
      exact (built.plain constraint constraintMem name nameMem).2.2
    · intro name nameMem
      exact Tag.silent_of_not_mem (built.unmarked constraint constraintMem name nameMem)
  rw [Tag.readLines] at tagged silent ⊢
  rw [built.heading_eq, List.flatMap_append, tagged, silent, List.append_nil]

theorem restated {layout : Layout} {second : Table} (built : table.Built)
    (readAs : table.ReadAs {} layout second) : table.Restated layout second := by
  obtain ⟨unstated, stated, found, read, rfl⟩ := readAs
  rw [built.unstatedConstraints_eq] at found
  cases found
  rw [built.mapM_heading] at read
  cases read
  constructor
  · rfl
  · apply List.forall₂_map_right_iff.mpr
    apply List.forall₂_same.mpr
    intro column member
    exact (built.columns column (mem_writtenColumns.mp member)).restated
  · simp [reread, List.filterMap_append, List.filterMap_map]
  · exact built.readLines_heading
  · exact built.heading_eq
  · exact built.remarks

end Built

end Table

namespace Schema

/-! ## Schemas -/

/-- A schema that was built: it has no comment lines. -/
structure Built (schema : Schema) : Prop where
  tables : ∀ table ∈ schema.tables, table.Built
  metadata : schema.metadata = []
  annotations : schema.annotations = []

instance (schema : Schema) : Decidable schema.Built :=
  decidable_of_iff ((∀ table ∈ schema.tables, table.Built) ∧ schema.metadata = [] ∧
      schema.annotations = [])
    ⟨fun ⟨tables, metadata, annotations⟩ => ⟨tables, metadata, annotations⟩,
      fun ⟨tables, metadata, annotations⟩ => ⟨tables, metadata, annotations⟩⟩

theorem Built.exists_render {schema : Schema} (built : schema.Built) (layout : Layout) :
    ∃ written, schema.render layout = .ok written := by
  apply Schema.exists_render
  intro table member
  exact ⟨_, (built.tables table member).unstatedConstraints_eq⟩

section Lines

/-- A table with constraints of most kinds. -/
def orderLines : Schema where
  tables := [{
    name := "Order Line".toList
    columns := [
      { name := "id".toList
        type := .simple "int".toList none false
        constraints := [.autoIncrement, .primaryKey] },
      { name := "state".toList
        type := .union [.string "open".toList, .string "paid".toList]
        nullable := true
        constraints := [
          .foreignKey {
            table := "State".toList
            column := "code".toList
            schema := some "sales".toList
            action := some "ON DELETE SET DEFAULT".toList },
          .defaultValue "'open'".toList,
          .checkIn "'open', 'paid'".toList]
        annotations := [⟨"unit".toList, "key".toList⟩] }]
    constraints := [⟨.unique, ["id".toList, "state".toList]⟩]
    annotations := [⟨"schema".toList, "sales".toList⟩] }]

theorem built_orderLines : orderLines.Built := by
  decide +kernel

end Lines

/-- A built schema is written in any layout, and what was written is read back as a
schema with the same tables. -/
theorem rereads_built {schema : Schema} (built : schema.Built) (layout : Layout) :
    ∃ written second, schema.render layout = .ok written ∧ Schema.read {} written = .ok second ∧
      second.metadata = [] ∧ second.annotations = [] ∧
      List.Forall₂ (Table.Restated layout) schema.tables second.tables := by
  obtain ⟨written, rendered⟩ := built.exists_render layout
  have kept : ∀ line ∈ schema.metadata, Comment.Kept line := by
    rw [built.metadata]
    exact List.forall_mem_nil _
  obtain ⟨second, read, metadata, annotations, tables⟩ := Schema.read_render kept
    (fun table member => (built.tables table member).writable) rendered
  refine ⟨written, second, rendered, read, metadata.trans built.metadata, ?_, ?_⟩
  · rw [annotations, built.metadata]
    rfl
  · exact ((List.forall₂_and_left _ _).mpr ⟨built.tables, tables⟩).imp
      fun table second ⟨known, readAs⟩ => known.restated readAs

theorem rereads_built_orderLines :
    orderLines.Built ∧ ∃ written second, orderLines.render {} = .ok written ∧
      Schema.read {} written = .ok second ∧ second.metadata = [] ∧ second.annotations = [] ∧
      List.Forall₂ (Table.Restated {}) orderLines.tables second.tables :=
  ⟨built_orderLines, rereads_built built_orderLines {}⟩

end Schema

end SchemaNotation
