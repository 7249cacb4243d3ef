import SchemaNotation.Proofs.Built
import SchemaNotation.Proofs.Legible
import SchemaNotation.Proofs.RoundTrip

/-!
# Text that is reproduced

A schema without comments is written with comments that state its columns.  For the
reader these comments are free text, and so are the lines that stand above and inside the
tables: it drops blanks at their ends and finds in them whatever they mention.  When
nothing of this changes what is written, the text is reproduced from what it is read as.
-/

namespace SchemaNotation

/-! ## Sorting that computes -/

namespace Column

/-- The comment that states a column, with its constraints inserted one by one. -/
def insertedComment? (column : Column) : Option Text :=
  let sorted := column.constraints.insertionSort fun first next => first.rank ≤ next.rank
  if Constraint.facts sorted column.annotations = [] then none
  else some (Constraint.comment sorted column.annotations)

theorem statedComment?_eq_inserted (column : Column) :
    column.statedComment? = column.insertedComment? := by
  rw [statedComment?_eq, inOrder, mergeSort_rank]
  rfl

theorem sortByRank_eq_inserted (columns : List Column) :
    sortByRank columns = columns.insertionSort fun first next => first.rank ≤ next.rank :=
  mergeSort_rank rank columns

end Column

/-! ## Schemas whose text is reproduced -/

/-- A text that is blank or does not start with a blank. -/
def Text.Flush (text : Text) : Prop :=
  trimLeft text = [] ∨ trimLeft text = text

instance (text : Text) : Decidable (Text.Flush text) :=
  inferInstanceAs (Decidable (_ ∨ _))

/-- The texts of a column. -/
def Column.strings (column : Column) : List Text :=
  column.name :: column.type.strings ++ column.constraints.flatMap Constraint.strings ++
    column.annotations.flatMap Tag.strings ++ column.comment.toList

/-- The texts of a table. -/
def Table.strings (table : Table) : List Text :=
  table.name :: table.columns.flatMap Column.strings ++
    table.constraints.flatMap TableConstraint.columns ++ table.annotations.flatMap Tag.strings ++
    table.metadata ++ table.remarks

/-- The texts of a schema. -/
def Schema.strings (schema : Schema) : List Text :=
  schema.tables.flatMap Table.strings ++ schema.metadata ++ schema.annotations.flatMap Tag.strings

/-- A text that states no table constraint. -/
def TableConstraint.Silent (text : Text) : Prop :=
  ∀ stated, read text ≠ .ok (some stated)

instance (text : Text) : Decidable (TableConstraint.Silent text) :=
  match found : TableConstraint.read text with
  | .ok (some stated) => .isFalse fun silent => silent stated found
  | .ok none => .isTrue fun stated states => by
      rw [found] at states
      cases states
  | .error _ => .isTrue fun stated states => by
      rw [found] at states
      cases states

/-- The written form of the type is read as a type that is written in the same way. -/
def ColumnType.Reproducible (type : ColumnType) : Prop :=
  ∃ second, read type.render = .ok (some second) ∧ second.render = type.render

instance (type : ColumnType) : Decidable type.Reproducible :=
  match found : ColumnType.read type.render with
  | .ok (some second) =>
      if same : second.render = type.render then .isTrue ⟨second, found, same⟩
      else .isFalse fun ⟨other, read, rendered⟩ => by
        rw [found] at read
        cases read
        exact same rendered
  | .ok none => .isFalse fun ⟨other, read, _⟩ => by
      rw [found] at read
      cases read
  | .error _ => .isFalse fun ⟨other, read, _⟩ => by
      rw [found] at read
      cases read

/-- The comment that states the column mentions a primary key. -/
def Column.mentionsKey (column : Column) : Bool :=
  Constraint.mentionsPrimaryKey (column.statedComment?.getD [])

/-- A column without a comment whose line is reproduced.  Its type can be read, and what
states it does not end with a blank. -/
structure Column.Reproducible (column : Column) : Prop where
  type : column.type.Reproducible
  comment : ∀ comment ∈ column.statedComment?, Text.trimRight comment = comment

instance (column : Column) : Decidable column.Reproducible :=
  decidable_of_iff (column.type.Reproducible ∧
      ∀ comment ∈ column.insertedComment?, Text.trimRight comment = comment) (by
    rw [← Column.statedComment?_eq_inserted]
    exact ⟨fun ⟨type, comment⟩ => ⟨type, comment⟩, fun ⟨type, comment⟩ => ⟨type, comment⟩⟩)

/-- A table whose lines are reproduced.  Its comment lines lose no blanks, those inside it
stay there, and no column is found to be in the primary key by its comment alone while it
stands behind one that is not. -/
structure Table.Reproducible (table : Table) : Prop where
  metadata : ∀ line ∈ table.metadata, Text.Flush line
  remarks : ∀ remark ∈ table.remarks, Text.Flush remark
  silent : ∀ remark ∈ table.remarks, TableConstraint.Silent remark
  annotations : ∀ tag ∈ table.unstatedAnnotations,
    tag.value ≠ [] ∧ Text.trimRight tag.value = tag.value
  columns : ∀ column ∈ table.columns, column.Reproducible
  order : (Column.sortByRank table.columns).Pairwise fun first next =>
    next.mentionsKey = true → first.mentionsKey = true

instance (table : Table) : Decidable table.Reproducible :=
  decidable_of_iff ((∀ line ∈ table.metadata, Text.Flush line) ∧
      (∀ remark ∈ table.remarks, Text.Flush remark) ∧
      (∀ remark ∈ table.remarks, TableConstraint.Silent remark) ∧
      (∀ tag ∈ table.unstatedAnnotations,
        tag.value ≠ [] ∧ Text.trimRight tag.value = tag.value) ∧
      (∀ column ∈ table.columns, column.Reproducible) ∧
      (table.columns.insertionSort fun first next => first.rank ≤ next.rank).Pairwise
        fun first next => Constraint.mentionsPrimaryKey (next.insertedComment?.getD []) = true →
          Constraint.mentionsPrimaryKey (first.insertedComment?.getD []) = true) (by
    simp only [← Column.statedComment?_eq_inserted, ← Column.sortByRank_eq_inserted]
    exact ⟨fun ⟨metadata, remarks, silent, annotations, columns, order⟩ =>
        ⟨metadata, remarks, silent, annotations, columns, order⟩,
      fun ⟨metadata, remarks, silent, annotations, columns, order⟩ =>
        ⟨metadata, remarks, silent, annotations, columns, order⟩⟩)

/-- A schema whose text is reproduced. -/
structure Schema.Reproducible (schema : Schema) : Prop where
  metadata : ∀ line ∈ schema.metadata, Text.Flush line
  tables : ∀ table ∈ schema.tables, table.Reproducible

instance (schema : Schema) : Decidable schema.Reproducible :=
  decidable_of_iff ((∀ line ∈ schema.metadata, Text.Flush line) ∧
      ∀ table ∈ schema.tables, table.Reproducible)
    ⟨fun ⟨metadata, tables⟩ => ⟨metadata, tables⟩, fun ⟨metadata, tables⟩ => ⟨metadata, tables⟩⟩

/-! ## The schema as its text has it -/

/-- The type that the written form of a type is read as, if it is one. -/
def ColumnType.normal (type : ColumnType) : ColumnType :=
  match read type.render with
  | .ok (some second) => second
  | _ => type

/-- The column with the type that is read. -/
def Column.normal (column : Column) : Column :=
  { column with type := column.type.normal }

/-- The table with everything above it in its metadata, and without the blanks that
reading takes away. -/
def Table.normal (table : Table) : Table where
  name := table.name
  columns := table.columns.map Column.normal
  metadata := (table.heading (table.constraints.filter fun constraint =>
    ¬table.States constraint)).map Text.trim
  remarks := table.remarks.map Text.trim

/-- The schema as its text has it. -/
def Schema.normal (schema : Schema) : Schema where
  tables := schema.tables.map Table.normal
  metadata := schema.metadata.map Text.trim

/-! ## Lines without their blanks -/

theorem Text.Flush.split {text : Text} (flush : Flush text) :
    ∃ blanks, Blank blanks ∧ text = trim text ++ blanks := by
  rcases flush with empty | whole
  · obtain ⟨blanks, blank, equal⟩ := trimLeft_split text
    rw [empty, List.append_nil] at equal
    exact ⟨blanks, blank, by rw [trim_eq_nil_iff.mpr empty]; exact equal⟩
  · rw [trim, whole]
    exact trimRight_split text

theorem Text.Trimmed.flush {text : Text} (trimmed : Trimmed text) : Flush text :=
  Or.inr (trimLeft_of_stops trimmed.first)

/-- The blanks at the end of a text are left out of its comment line anyway. -/
theorem Comment.line_trim {text : Text} (flush : Text.Flush text) :
    line (Text.trim text) = line text := by
  obtain ⟨blanks, blank, equal⟩ := flush.split
  conv_rhs => rw [equal]
  rw [line, line, ← List.append_assoc, Text.trimRight_append_blank blank]

theorem TableConstraint.read_trim (text : Text) : read (Text.trim text) = read text := by
  simp only [read, Text.trim_trim]

/-! ## Columns -/

theorem ColumnType.Reproducible.normal_eq {type : ColumnType} (reproducible : type.Reproducible) :
    read type.render = .ok (some type.normal) ∧ type.normal.render = type.render := by
  obtain ⟨second, found, same⟩ := reproducible
  have equal : type.normal = second := by
    rw [normal, found]
  rw [equal]
  exact ⟨found, same⟩

namespace Column

variable {column : Column}

theorem lineFree_statedComment? {comment : Text}
    (oneLine : ∀ string ∈ column.strings, Text.LineFree string)
    (stated : column.statedComment? = some comment) : Text.LineFree comment := by
  rw [statedComment?_eq] at stated
  split at stated
  · cases stated
  · cases stated
    apply Constraint.lineFree_comment
    · intro constraint member string stringMem
      rw [inOrder, List.mem_mergeSort] at member
      apply oneLine
      simp only [strings, List.mem_append, List.mem_flatMap]
      exact Or.inl (Or.inl (Or.inr ⟨constraint, member, stringMem⟩))
    · intro tag member
      apply Tag.lineFree_render
      intro string stringMem
      apply oneLine
      simp only [strings, List.mem_append, List.mem_flatMap]
      exact Or.inl (Or.inr ⟨tag, member, stringMem⟩)

theorem Reproducible.render_normal (reproducible : column.Reproducible) (layout : Layout) :
    column.normal.render layout = column.render layout := by
  apply render_congr
  · rfl
  · exact reproducible.type.normal_eq.2
  · rfl

theorem Reproducible.joinable_normal (reproducible : column.Reproducible)
    (oneLine : ∀ string ∈ column.strings, Text.LineFree string)
    (uncommented : column.comment = none) : column.normal.Joinable := by
  obtain ⟨found, _⟩ := reproducible.type.normal_eq
  refine ⟨oneLine column.name (by simp [strings]), ColumnType.valid_of_read found, ?_, ?_⟩
  · intro string member
    have written : Text.LineFree column.type.render := by
      apply ColumnType.lineFree_render
      intro text textMem
      apply oneLine
      simp [strings, textMem]
    exact written.mono (ColumnType.strings_subset_of_read found string member)
  · intro comment stated
    have trailing : column.statedComment? = some comment := by
      rw [← stated, trailingComment?, normal, uncommented]
      rfl
    obtain ⟨filled, starts⟩ := opens_statedComment? trailing
    refine ⟨filled, ⟨starts, ?_⟩, lineFree_statedComment? oneLine trailing⟩
    intro c last
    rw [← reproducible.comment comment trailing] at last
    exact Text.trimRight_last last

/-! ## The order of the columns -/

/-- A primary key is stated first. -/
theorem exists_inOrder_of_mem {constraints : List Constraint}
    (member : .primaryKey ∈ constraints) : ∃ others, inOrder constraints = .primaryKey :: others := by
  have sorted : (inOrder constraints).Pairwise fun first next => first.rank ≤ next.rank :=
    pairwise_mergeSort_rank Constraint.rank constraints
  have inside : .primaryKey ∈ inOrder constraints := List.mem_mergeSort.mpr member
  cases shape : inOrder constraints with
  | nil =>
      rw [shape] at inside
      cases inside
  | cons first others =>
      rw [shape] at inside sorted
      rcases List.mem_cons.mp inside with rfl | later
      · exact ⟨others, rfl⟩
      · have least := (List.pairwise_cons.mp sorted).1 .primaryKey later
        cases first <;> cases least
        exact ⟨others, rfl⟩

/-- The comment of a column in the primary key mentions it. -/
theorem mentionsKey_of_isPrimaryKey (isKey : column.isPrimaryKey = true) :
    column.mentionsKey = true := by
  obtain ⟨others, sorted⟩ := exists_inOrder_of_mem (isPrimaryKey_iff.mp isKey)
  have shape : Constraint.facts (inOrder column.constraints) column.annotations =
      .constraint .primaryKey :: Constraint.facts others column.annotations := by
    rw [sorted]
    rfl
  obtain ⟨rest, joined, follows⟩ := Constraint.comment_starts shape
  have finds : Constraint.Finds [Constraint.primaryKey.lead]
      (Constraint.mentionHere (Constraint.primaryKey.lead :: ["KEY".toList]))
      (fun other => if other = .primaryKey then some () else none) :=
    Constraint.finds_fixed (by simp [Constraint.fixed]) (by decide) (by decide)
  have here := finds.finds .primaryKey () (by decide) rfl none rest rfl follows
  have found : Text.mentions ["PRIMARY".toList, "KEY".toList]
      (Constraint.comment (inOrder column.constraints) column.annotations) = true := by
    rw [joined]
    exact Constraint.mentions_iff.mpr (Text.firstMatch_of_here here)
  rw [mentionsKey, statedComment?_eq, if_neg (by simp [shape]), Option.getD_some,
    Constraint.mentionsPrimaryKey, found, Bool.true_or]

/-- Where a column is written once it was read. -/
theorem rank_reread (uncommented : column.comment = none) :
    (column.reread {}).rank = if column.mentionsKey then 0
      else if timestampNames.contains (Text.lower column.name) then 2 else 1 := by
  have trailing : column.trailingComment? = column.statedComment? := by
    rw [trailingComment?, uncommented]
  have isKey : (column.reread {}).isPrimaryKey = column.mentionsKey := by
    rw [Bool.eq_iff_iff, isPrimaryKey_iff, reread, trailing]
    exact Constraint.mem_readAll
  rw [rank, isKey]
  rfl

/-- Columns whose comments mention no further primary key keep their order. -/
theorem sortByRank_reread {columns : List Column}
    (uncommented : ∀ column ∈ columns, column.comment = none)
    (order : (sortByRank columns).Pairwise fun first next =>
      next.mentionsKey = true → first.mentionsKey = true) :
    sortByRank ((sortByRank columns).map (reread {})) = (sortByRank columns).map (reread {}) := by
  have sorted : (sortByRank columns).Pairwise fun first next => first.rank ≤ next.rank :=
    pairwise_mergeSort_rank rank columns
  apply List.mergeSort_of_pairwise
  rw [List.pairwise_map]
  refine (sorted.and order).imp_of_mem ?_
  intro first next firstMem nextMem ⟨before, mentions⟩
  rw [decide_eq_true_eq, rank_reread (uncommented first (List.mem_mergeSort.mp firstMem)),
    rank_reread (uncommented next (List.mem_mergeSort.mp nextMem))]
  by_cases firstKey : first.mentionsKey = true
  · rw [if_pos firstKey]
    exact Nat.zero_le _
  · have nextKey : ¬next.mentionsKey = true := fun nextKey => firstKey (mentions nextKey)
    -- Without a mention neither column is in the primary key, so both keep their ranks.
    rw [rank, rank, if_neg fun isKey => firstKey (mentionsKey_of_isPrimaryKey isKey),
      if_neg fun isKey => nextKey (mentionsKey_of_isPrimaryKey isKey)] at before
    rw [if_neg firstKey, if_neg nextKey]
    exact before

theorem sortByRank_normal (columns : List Column) :
    sortByRank (columns.map normal) = (sortByRank columns).map normal := by
  symm
  apply List.map_mergeSort
  intro first _ second _
  rfl

end Column

/-! ## Tables -/

namespace Table

variable {layout : Layout} {table second : Table}

theorem Reproducible.trimmed_tags (reproducible : table.Reproducible) :
    ∀ tag ∈ table.unstatedAnnotations, Text.Trimmed tag.render := by
  intro tag member
  obtain ⟨filled, ended⟩ := reproducible.annotations tag member
  refine ⟨Text.stops_cons.mpr (by decide), ?_⟩
  intro c last
  rw [Tag.render, List.getLast?_append_of_ne_nil _ filled, ← ended] at last
  exact Text.trimRight_last last

theorem Reproducible.flush_heading (reproducible : table.Reproducible)
    (unstated : List TableConstraint) : ∀ text ∈ table.heading unstated, Text.Flush text :=
  forall_mem_heading (fun tag member => (reproducible.trimmed_tags tag member).flush)
    reproducible.metadata fun constraint _ => (TableConstraint.trimmed_render constraint).flush

/-- The comment lines of a text and of the text without its outer blanks are the same. -/
theorem map_line_trim {texts : List Text} (flush : ∀ text ∈ texts, Text.Flush text) :
    (texts.map Text.trim).map Comment.line = texts.map Comment.line := by
  rw [List.map_map]
  apply List.map_congr_left
  intro text member
  exact Comment.line_trim (flush text member)

/-- Tables with the same comment lines and the same column lines have the same lines inside. -/
theorem body_congr {first second : Table} {layout : Layout}
    (remarks : first.remarks.map Comment.line = second.remarks.map Comment.line)
    (columns : (first.writtenColumns layout).map (Column.render layout) =
      (second.writtenColumns layout).map (Column.render layout)) :
    first.body layout = second.body layout := by
  have indented := congrArg (List.map (List.replicate layout.indent ' ' ++ ·)) remarks
  have written := congrArg (List.map (List.replicate layout.indent ' ' ++ ·)) columns
  rw [List.map_map, List.map_map] at indented written
  exact congrArg₂ (· ++ ·) indented written

theorem Reproducible.body_normal (reproducible : table.Reproducible) (layout : Layout) :
    table.normal.body layout = table.body layout := by
  have written : table.normal.writtenColumns layout =
      (table.writtenColumns layout).map Column.normal := by
    rw [writtenColumns, writtenColumns]
    split
    · exact Column.sortByRank_normal table.columns
    · rfl
  apply body_congr
  · exact map_line_trim reproducible.remarks
  · rw [written, List.map_map]
    apply List.map_congr_left
    intro column member
    exact (reproducible.columns column (mem_writtenColumns.mp member)).render_normal layout

/-- The normal form of a table states its own constraints and annotations. -/
theorem Reproducible.renderLines_normal (reproducible : table.Reproducible) (layout : Layout)
    {unstated : List TableConstraint} (found : table.unstatedConstraints = .ok unstated) :
    table.normal.renderLines layout = table.renderLines layout := by
  have tagged := reproducible.trimmed_tags
  have metadata : table.normal.metadata = (table.heading unstated).map Text.trim := by
    rw [unstated_eq found]
    rfl
  obtain ⟨read, success⟩ := exists_read_heading tagged found
  have readNormal : table.normal.metadata.mapM TableConstraint.read = .ok read := by
    rw [metadata, ← success]
    apply mapM_eq_of_forall₂
    rw [List.forall₂_map_right_iff, List.forall₂_same]
    intro text _
    exact TableConstraint.read_trim text
  have nothing := unstatedConstraints_of_states readNormal (List.forall_mem_nil _)
  have heading : table.normal.heading [] = (table.heading unstated).map Text.trim := by
    rw [← metadata]
    exact List.append_nil _
  rw [renderLines_eq tagged found, renderLines_eq (List.forall_mem_nil _) nothing, heading,
    map_line_trim (reproducible.flush_heading unstated), reproducible.body_normal]
  rfl

theorem lineFree_heading (oneLine : ∀ string ∈ table.strings, Text.LineFree string)
    {unstated : List TableConstraint} (among : unstated ⊆ table.constraints) :
    ∀ text ∈ table.heading unstated, Text.LineFree text := by
  apply forall_mem_heading
  · intro tag member
    apply Tag.lineFree_render
    intro string stringMem
    apply oneLine
    have noted := (List.mem_filter.mp member).1
    simp only [strings, List.mem_append, List.mem_flatMap]
    exact Or.inl (Or.inl (Or.inr ⟨tag, noted, stringMem⟩))
  · exact fun line member => oneLine line (by simp [strings, member])
  · intro constraint member
    apply TableConstraint.lineFree_render
    intro name nameMem
    apply oneLine
    simp only [strings, List.mem_append, List.mem_flatMap]
    exact Or.inl (Or.inl (Or.inl (Or.inr ⟨constraint, among member, nameMem⟩)))

/-- The normal form of a table without line breaks can be put together. -/
theorem Reproducible.joinable_normal (reproducible : table.Reproducible)
    (oneLine : ∀ string ∈ table.strings, Text.LineFree string)
    (uncommented : ∀ column ∈ table.columns, column.comment = none) : table.normal.Joinable where
  nameFree := oneLine table.name (by simp [strings])
  annotations := List.forall_mem_nil _
  constraints := List.forall_mem_nil _
  metadata := by
    intro line member
    obtain ⟨text, textMem, rfl⟩ := List.mem_map.mp member
    have free := lineFree_heading oneLine (List.filter_sublist).subset text textMem
    exact ⟨Text.trimmed_trim text, free.mono (Text.trim_subset text)⟩
  remarks := by
    intro line member
    obtain ⟨remark, remarkMem, rfl⟩ := List.mem_map.mp member
    have free := oneLine remark (by simp [strings, remarkMem])
    exact ⟨Text.trimmed_trim remark, free.mono (Text.trim_subset remark)⟩
  columns := by
    intro normal member
    obtain ⟨column, columnMem, rfl⟩ := List.mem_map.mp member
    apply (reproducible.columns column columnMem).joinable_normal _ (uncommented column columnMem)
    intro string stringMem
    apply oneLine
    simp only [strings, List.mem_append, List.mem_cons, List.mem_flatMap]
    exact Or.inl (Or.inl (Or.inl (Or.inl (Or.inr ⟨column, columnMem, stringMem⟩))))

/-- The remarks of a normal table state no constraints, under any reading options. -/
theorem Reproducible.unstated_normal (reproducible : table.Reproducible) (options : ReadOptions) :
    ∀ line ∈ table.normal.remarks, ∀ stated,
      BodyEntry.readConstraint options line ≠ .ok (some stated) := by
  intro line member stated found
  obtain ⟨remark, remarkMem, rfl⟩ := List.mem_map.mp member
  obtain ⟨_, states⟩ := BodyEntry.read_of_readConstraint found
  rw [TableConstraint.read_trim] at states
  exact reproducible.silent remark remarkMem stated states

/-- The columns that are read from the lines of a normal table keep their order. -/
theorem Reproducible.writtenColumns_reread (reproducible : table.Reproducible)
    (uncommented : ∀ column ∈ table.columns, column.comment = none)
    (readAs : table.normal.ReadAs {} layout second) :
    second.writtenColumns layout = (table.normal.writtenColumns layout).map (Column.reread {}) := by
  obtain ⟨unstated, stated, _, _, rfl⟩ := readAs
  unfold writtenColumns
  split
  · next sorts =>
      have written : (table.normal.reread {} layout unstated stated).columns =
          (Column.sortByRank table.normal.columns).map (Column.reread {}) := by
        rw [reread, writtenColumns, if_pos sorts]
      rw [written]
      apply Column.sortByRank_reread
      · intro normal member
        obtain ⟨column, columnMem, rfl⟩ := List.mem_map.mp member
        exact uncommented column columnMem
      · rw [show table.normal.columns = table.columns.map Column.normal from rfl,
          Column.sortByRank_normal, List.pairwise_map]
        exact reproducible.order
  · next keeps => rw [reread, writtenColumns, if_neg keeps]

/-- What the lines of a normal table are read as has the same lines inside. -/
theorem Reproducible.body_reread (reproducible : table.Reproducible)
    (uncommented : ∀ column ∈ table.columns, column.comment = none)
    (writable : table.normal.Writable {}) (readAs : table.normal.ReadAs {} layout second) :
    second.body layout = table.normal.body layout := by
  have written := reproducible.writtenColumns_reread uncommented readAs
  obtain ⟨unstated, stated, _, _, rfl⟩ := readAs
  apply body_congr
  · rfl
  · rw [written, List.map_map]
    apply List.map_congr_left
    intro column member
    obtain ⟨known, fits⟩ := writable.columns column (mem_writtenColumns.mp member)
    exact Column.render_reread known fits {} layout

end Table

/-! ## Schemas -/

namespace Schema

variable {schema second : Schema} {written : Text}

theorem Reproducible.render_normal (reproducible : schema.Reproducible) {layout : Layout}
    (rendered : schema.render layout = .ok written) : schema.normal.render layout = .ok written := by
  obtain ⟨texts, tablesRendered, result⟩ := exists_of_bind_eq_ok rendered
  have tables : schema.normal.tables.mapM (Table.render layout) = .ok texts := by
    rw [← tablesRendered]
    apply mapM_eq_of_forall₂
    rw [normal, List.forall₂_map_right_iff, List.forall₂_same]
    intro table member
    obtain ⟨text, rendered⟩ := exists_result_of_mem (mapM_eq_ok_iff.mp tablesRendered) member
    obtain ⟨lines, rendered, _⟩ := exists_of_bind_eq_ok rendered
    obtain ⟨unstated, found, _⟩ := exists_of_bind_eq_ok rendered
    rw [Table.render, Table.render,
      (reproducible.tables table member).renderLines_normal layout found]
  have comments : schema.normal.metadata.map Comment.line = schema.metadata.map Comment.line :=
    Table.map_line_trim reproducible.metadata
  have empty : schema.normal.metadata.isEmpty = schema.metadata.isEmpty := List.isEmpty_map
  rw [Schema.render, tables, comments, empty]
  exact result

theorem kept_normal (oneLine : ∀ string ∈ schema.strings, Text.LineFree string) :
    ∀ line ∈ schema.normal.metadata, Comment.Kept line := by
  intro line member
  obtain ⟨text, textMem, rfl⟩ := List.mem_map.mp member
  have free := oneLine text (by simp [strings, textMem])
  exact ⟨Text.trimmed_trim text, free.mono (Text.trim_subset text)⟩

theorem Reproducible.joinable_normal (reproducible : schema.Reproducible)
    (uncommented : ∀ table ∈ schema.tables, ∀ column ∈ table.columns, column.comment = none)
    (oneLine : ∀ string ∈ schema.strings, Text.LineFree string) :
    ∀ table ∈ schema.normal.tables, table.Joinable := by
  intro normal member
  obtain ⟨table, tableMem, rfl⟩ := List.mem_map.mp member
  apply (reproducible.tables table tableMem).joinable_normal _ (uncommented table tableMem)
  intro string stringMem
  apply oneLine
  simp only [strings, List.mem_append, List.mem_flatMap]
  exact Or.inl (Or.inl ⟨table, tableMem, stringMem⟩)

/-- When the text of a normal schema is read, every table in it can be written. -/
theorem Reproducible.writable_normal (reproducible : schema.Reproducible)
    (uncommented : ∀ table ∈ schema.tables, ∀ column ∈ table.columns, column.comment = none)
    (oneLine : ∀ string ∈ schema.strings, Text.LineFree string) {layout : Layout}
    (rendered : schema.normal.render layout = .ok written) (read : Schema.read {} written = .ok second) :
    ∀ table ∈ schema.normal.tables, table.Writable {} := by
  refine writable_of_read (kept_normal oneLine)
    (reproducible.joinable_normal uncommented oneLine) ?_ rendered read
  intro normal member
  obtain ⟨table, tableMem, rfl⟩ := List.mem_map.mp member
  exact (reproducible.tables table tableMem).unstated_normal {}

/-- What the text of a normal schema is read as is written like it, table by table. -/
theorem Reproducible.render_tables (reproducible : schema.Reproducible)
    (uncommented : ∀ table ∈ schema.tables, ∀ column ∈ table.columns, column.comment = none)
    (writable : ∀ table ∈ schema.normal.tables, table.Writable {})
    (canonical : ∀ table ∈ second.tables, table.Canonical {}) {layout : Layout}
    (tables : List.Forall₂ (Table.ReadAs {} layout) schema.normal.tables second.tables) :
    second.tables.mapM (Table.render layout) = schema.normal.tables.mapM (Table.render layout) := by
  apply mapM_eq_of_forall₂
  rw [normal, List.forall₂_map_left_iff] at tables ⊢
  have known := (List.forall₂_and_left _ _).mpr ⟨canonical, tables.flip⟩
  have members : ∀ table ∈ schema.tables, table ∈ schema.tables := fun _ member => member
  refine ((List.forall₂_and_left _ _).mpr ⟨members, known.flip⟩).imp ?_
  rintro table second ⟨member, secondKnown, readAs⟩
  have tableWritable := writable table.normal (List.mem_map_of_mem member)
  have inside := (reproducible.tables table member).body_reread (uncommented table member)
    tableWritable readAs
  rw [Table.render, Table.render,
    Table.ReadAs.renderLines_eq readAs tableWritable secondKnown inside]

end Schema

section Ledger

/-- A schema with lines of every kind.  The default value of a column reads like a
constraint. -/
def ledger : Schema where
  tables := [{
    name := "Entry".toList
    columns := [
      { name := "state".toList
        type := .union [.string "open".toList, .string "paid".toList]
        nullable := true
        constraints := [.defaultValue "'UNIQUE'".toList] },
      { name := "id".toList
        type := .simple "int".toList none false
        constraints := [.autoIncrement, .primaryKey]
        annotations := [⟨"unit".toList, "key".toList⟩] }]
    constraints := [⟨.unique, ["id".toList, "state".toList]⟩, ⟨.index, ["state".toList]⟩]
    annotations := [⟨"owner".toList, "sales".toList⟩]
    metadata := ["INDEX(state) ".toList]
    remarks := ["one row each".toList] }]
  metadata := ["booked daily".toList]

/-- What is written for the schema. -/
def ledgerWritten : Text :=
  List.intercalate ['\n'] <| List.map String.toList
    ["// booked daily",
      "",
      "// @owner: sales",
      "// INDEX(state)",
      "// UNIQUE(id, state)",
      "interface Entry \x7b",
      "  // one row each",
      "  id: int;                                   // PRIMARY KEY, AUTO_INCREMENT, @unit: key",
      "  state?: 'open' | 'paid';                   // DEFAULT 'UNIQUE'",
      "\x7d",
      ""]

/-- What the text is read as. -/
def ledgerRead : Schema where
  tables := [{
    name := "Entry".toList
    columns := [
      { name := "id".toList
        type := .simple "int".toList none false
        constraints := [.primaryKey, .autoIncrement]
        annotations := [⟨"unit".toList, "key".toList⟩]
        comment := some "PRIMARY KEY, AUTO_INCREMENT, @unit: key".toList },
      { name := "state".toList
        type := .union [.string "open".toList, .string "paid".toList]
        nullable := true
        constraints := [.unique, .defaultValue "'UNIQUE'".toList]
        comment := some "DEFAULT 'UNIQUE'".toList }]
    constraints := [⟨.index, ["state".toList]⟩, ⟨.unique, ["id".toList, "state".toList]⟩]
    annotations := [⟨"owner".toList, "sales".toList⟩]
    metadata := ["@owner: sales".toList, "INDEX(state)".toList, "UNIQUE(id, state)".toList]
    remarks := ["one row each".toList] }]
  metadata := ["booked daily".toList]

theorem reproducible_ledger : ledger.Reproducible := by decide +kernel

theorem render_ledger : ledger.render {} = .ok ledgerWritten := by
  unfold Schema.render Table.render Table.renderLines Table.writtenColumns Column.render
    Column.trailingComment?
  simp only [Column.statedComment?_eq_inserted, Column.sortByRank_eq_inserted, ledgerWritten,
    List.map_cons]
  -- Decoding the lines takes the kernel longer than writing their characters.
  repeat rw [String.toList_ofList]
  decide +kernel

theorem read_ledgerWritten : Schema.read {} ledgerWritten = .ok ledgerRead := by
  simp only [ledgerWritten, List.map_cons]
  repeat rw [String.toList_ofList]
  decide +kernel

end Ledger

/-- A schema without comments and line breaks whose text is reproduced: whatever the text is
read as, it is written with the same text. -/
theorem Schema.rerenders_uncommented {layout : Layout} {schema second : Schema} {written : Text}
    (uncommented : ∀ table ∈ schema.tables, ∀ column ∈ table.columns, column.comment = none)
    (oneLine : ∀ string ∈ schema.strings, Text.LineFree string)
    (reproducible : schema.Reproducible) (rendered : schema.render layout = .ok written)
    (read : Schema.read {} written = .ok second) : second.render layout = .ok written := by
  have normalRendered := reproducible.render_normal rendered
  have writable := reproducible.writable_normal uncommented oneLine normalRendered read
  obtain ⟨other, reread, metadata, _, tables⟩ :=
    Schema.read_render (Schema.kept_normal oneLine) writable normalRendered
  rw [read] at reread
  cases reread
  have canonical := Schema.canonical_of_read read
  rw [Schema.render, metadata, reproducible.render_tables uncommented writable canonical.tables tables]
  exact normalRendered

theorem Schema.rerenders_uncommented_ledger :
    (∀ table ∈ ledger.tables, ∀ column ∈ table.columns, column.comment = none) ∧
      (∀ string ∈ ledger.strings, Text.LineFree string) ∧ ledger.Reproducible ∧
      ledger.render {} = .ok ledgerWritten ∧ Schema.read {} ledgerWritten = .ok ledgerRead ∧
      ledgerRead.render {} = .ok ledgerWritten := by
  have uncommented : ∀ table ∈ ledger.tables, ∀ column ∈ table.columns, column.comment = none := by
    decide
  have oneLine : ∀ string ∈ ledger.strings, Text.LineFree string := by
    decide
  exact ⟨uncommented, oneLine, reproducible_ledger, render_ledger, read_ledgerWritten,
    Schema.rerenders_uncommented uncommented oneLine reproducible_ledger render_ledger
      read_ledgerWritten⟩

/-- A default value that mentions a primary key brings its column to the front when the
schema is written again. -/
theorem Schema.mentioned_key_moves_column :
    ¬∀ (schema : Schema) (written : Text) (second : Schema),
      (∀ table ∈ schema.tables, ∀ column ∈ table.columns, column.comment = none) →
      (∀ string ∈ schema.strings, Text.LineFree string) → schema.render {} = .ok written →
      Schema.read {} written = .ok second → second.render {} = .ok written := by
  intro reproduces
  have again := reproduces
    { tables := [{
        name := "T".toList
        columns := [
          { name := "a".toList, type := .simple "int".toList none false },
          { name := "b".toList
            type := .simple "int".toList none false
            constraints := [.defaultValue "'PK'".toList] }] }] }
    ("interface T \x7b\n  a: int;\n" ++
      "  b: int;                                    // DEFAULT 'PK'\n\x7d\n").toList
    { tables := [{
        name := "T".toList
        columns := [
          { name := "a".toList, type := .simple "int".toList none false },
          { name := "b".toList
            type := .simple "int".toList none false
            constraints := [.primaryKey, .defaultValue "'PK'".toList]
            comment := some "DEFAULT 'PK'".toList }] }] }
    (by decide +kernel) (by decide +kernel)
  unfold Schema.render Table.render Table.renderLines Table.writtenColumns Column.render
    Column.trailingComment? at again
  simp only [Column.statedComment?_eq_inserted, Column.sortByRank_eq_inserted] at again
  exact absurd (again (by decide +kernel) (by decide +kernel)) (by decide +kernel)

end SchemaNotation
