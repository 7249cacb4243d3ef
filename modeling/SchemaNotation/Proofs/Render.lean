import SchemaNotation.Proofs.Document
import SchemaNotation.Proofs.Tag
import SchemaNotation.Render

/-!
# A written document read back

The reader takes the lines of a written table one group after the other: the comment
lines above it gather, its header opens it, every line inside it is an entry, and its
last line closes it.  A blank line follows each table, so the next one starts afresh.
-/

namespace SchemaNotation

namespace Progress

variable {options : ReadOptions}

/-! ## Groups of lines -/

theorem readLines_append {progress middle : Progress} {number : Int} {first : List Text}
    (run : readLines options progress number first = .ok middle) (second : List Text) :
    readLines options progress number (first ++ second) =
      readLines options middle (number + first.length) second := by
  induction first generalizing progress number with
  | nil =>
      cases run
      simp
  | cons line first ih =>
      obtain ⟨next, step, run⟩ := exists_of_bind_eq_ok run
      have later : number + ((line :: first).length : Int) = number + 1 + (first.length : Int) := by
        rw [List.length_cons]
        omega
      rw [List.cons_append, readLines, step, later]
      exact ih run

theorem readLines_cons {progress middle : Progress} {number : Int} {line : Text}
    (step : readLine options progress number line = .ok middle) (lines : List Text) :
    readLines options progress number (line :: lines) =
      readLines options middle (number + 1) lines := by
  rw [readLines, step]
  rfl

theorem readLine_blank (tables : List Table) (metadata pending : List Text) (number : Int) :
    readLine options { tables, metadata, place := .between pending } number [] =
      .ok { tables, metadata := metadata ++ pending, place := .between [] } :=
  rfl

theorem readLine_comment {text : Text} (kept : Comment.Kept text) (tables : List Table)
    (metadata pending : List Text) (number : Int) :
    readLine options { tables, metadata, place := .between pending } number (Comment.line text) =
      .ok { tables, metadata, place := .between (pending ++ [text]) } := by
  obtain ⟨rest, shape, _, trimmed⟩ := Comment.line_shape kept.trimmed
  have starts := Comment.startsHere_line kept.trimmed
  have filled : (Comment.line text).isEmpty = false := by
    rw [shape]
    rfl
  rw [readLine, Text.trimLeft_of_stops trimmed.first]
  simp only [filled, starts, Comment.content_line kept.trimmed, Bool.false_eq_true, if_false,
    if_true]
  rfl

/-- Comment lines gather until something takes them. -/
theorem readLines_comments {texts : List Text} (kept : ∀ text ∈ texts, Comment.Kept text)
    (tables : List Table) (metadata pending : List Text) (number : Int) :
    readLines options { tables, metadata, place := .between pending } number
        (texts.map Comment.line) =
      .ok { tables, metadata, place := .between (pending ++ texts) } := by
  induction texts generalizing pending number with
  | nil => simp [readLines]
  | cons text texts ih =>
      rw [List.map_cons, readLines_cons (readLine_comment (kept text (by simp)) ..),
        ih fun other member => kept other (List.mem_cons_of_mem text member)]
      simp

/-- The line that opens a table. -/
def header (name : Text) : Text :=
  "interface ".toList ++ Identifier.render name ++ [' ', '\x7b']

theorem lineFree_header {name : Text} (free : Text.LineFree name) : Text.LineFree (header name) := by
  have keyword : Text.LineFree "interface ".toList := by decide
  have brace : Text.LineFree [' ', '\x7b'] := by decide
  exact Text.lineFree_append.mpr
    ⟨Text.lineFree_append.mpr ⟨keyword, Identifier.lineFree_render free⟩, brace⟩

/-- A header is the keyword, a space, the written name and the brace. -/
theorem header_append (name rest : Text) :
    header name ++ rest =
      Interface.keyword ++ ' ' :: (Identifier.render name ++ ' ' :: '\x7b' :: rest) :=
  calc header name ++ rest
    _ = "interface ".toList ++ (Identifier.render name ++ ([' ', '\x7b'] ++ rest)) :=
        (List.append_assoc _ _ rest).trans (List.append_assoc _ _ _)
    _ = Interface.keyword ++ ' ' :: (Identifier.render name ++ ' ' :: '\x7b' :: rest) := rfl

theorem readHeader?_header {name : Text} (free : '\n' ∉ name) (rest : Text) :
    Interface.readHeader? (header name ++ rest) = some (name, rest) := by
  have stops : Text.Stops isBlank (Identifier.render name ++ ' ' :: '\x7b' :: rest) :=
    Identifier.stops_render (by decide) (fun _ => isBlank_of_isWord) free _
  have blanks : Text.blanks? (' ' :: (Identifier.render name ++ ' ' :: '\x7b' :: rest)) =
      some (Identifier.render name ++ ' ' :: '\x7b' :: rest) := by
    rw [Text.blanks?, if_pos (by decide), Text.trimLeft_of_stops stops]
  have named : Interface.readName? (Identifier.render name ++ ' ' :: '\x7b' :: rest) =
      some (name, ' ' :: '\x7b' :: rest) := by
    rcases Identifier.render_cases free with ⟨plain, written⟩ | ⟨_, written⟩
    · rw [written, Interface.readName?, Identifier.readQuoted?_of_isPlain plain]
      exact Identifier.readPlain?_append plain (Text.stops_cons.mpr (by decide))
    · rw [written, Interface.readName?,
        Identifier.readQuoted?_quote name (Text.stops_cons.mpr (by decide))]
  simp only [Interface.readHeader?, header_append, Text.after?_append, blanks, named,
    Option.bind_eq_bind, Option.bind_some]
  rfl

theorem segments_nil : Body.segments [] = [] := by
  simp [Body.segments, Body.piecesFrom, Text.trim, Text.trimLeft, Text.trimRight,
    Body.attachComments]

/-- A line that starts with the keyword and a space is read as one that opens a table. -/
theorem readLine_keyword (tables : List Table) (metadata pending : List Text) (number : Int)
    (rest : Text) :
    readLine options { tables, metadata, place := .between pending } number
        (Interface.keyword ++ ' ' :: rest) =
      openTable options { tables, metadata, place := .between pending } pending number
        (Interface.keyword ++ ' ' :: rest) := by
  have stops : Text.Stops isBlank (Interface.keyword ++ ' ' :: rest) :=
    Text.stops_cons.mpr (by decide)
  have filled : (Interface.keyword ++ ' ' :: rest).isEmpty = false := rfl
  have silent : Comment.startsHere (Interface.keyword ++ ' ' :: rest) = false :=
    Comment.startsHere_cons_of_ne (by decide) _
  have opens : Interface.startsHere (Interface.keyword ++ ' ' :: rest) = true := by
    rw [Interface.startsHere, Text.after?_append]
    rfl
  rw [readLine, Text.trimLeft_of_stops stops]
  simp only [filled, silent, opens, Bool.false_eq_true, if_false, if_true]

/-- A header takes the comment lines before it and opens its table. -/
theorem readLine_header {name : Text} (free : '\n' ∉ name) (tables : List Table)
    (metadata pending : List Text) (number : Int) :
    readLine options { tables, metadata, place := .between pending } number (header name) =
      .ok {
        tables, metadata
        place := .inside {
          name, line := number, header := header name, metadata := pending, entries := [] } } := by
  have shape := header_append name []
  have read := readHeader?_header free []
  rw [List.append_nil] at shape read
  conv_lhs => rw [shape]
  rw [readLine_keyword, ← shape]
  simp only [openTable, read]
  simp [Text.trim, Text.trimLeft, Text.trimRight, Text.before?, Text.after?, segments_nil,
    OpenTable.add, pure, Except.pure, bind, Except.bind]

/-! ## The lines inside a table -/

/-- A line inside a table is read as one entry. -/
theorem readLine_entry {line : Text} (filled : Text.trim line ≠ [])
    (inside : Text.trim line ≠ ['\x7d'])
    (tables : List Table) (metadata : List Text) (table : OpenTable) (number : Int) :
    readLine options { tables, metadata, place := .inside table } number line =
      (BodyEntry.read options number (Text.trim line)).map fun entry => {
        tables, metadata
        place := .inside { table with entries := table.entries ++ [entry] } } := by
  have filled : (Text.trim line).isEmpty = false := by simpa using filled
  rw [readLine]
  simp only [inside, filled, if_false, Bool.false_eq_true, OpenTable.add, List.mapM_cons,
    List.mapM_nil]
  cases BodyEntry.read options number (Text.trim line) <;> rfl

/-- A line that the reader of a table body takes for the entry, wherever it stands. -/
structure BodyLine (options : ReadOptions) (line : Text) (entry : BodyEntry) : Prop where
  filled : Text.trim line ≠ []
  inside : Text.trim line ≠ ['\x7d']
  read : ∀ number, BodyEntry.read options number (Text.trim line) = .ok entry

theorem readLine_body {line : Text} {entry : BodyEntry} (body : BodyLine options line entry)
    (tables : List Table) (metadata : List Text) (table : OpenTable) (number : Int) :
    readLine options { tables, metadata, place := .inside table } number line =
      .ok {
        tables, metadata
        place := .inside { table with entries := table.entries ++ [entry] } } := by
  rw [readLine_entry body.filled body.inside, body.read number]
  rfl

/-- Lines inside a table add their entries. -/
theorem readLines_body {lines : List Text} {entries : List BodyEntry}
    (body : List.Forall₂ (BodyLine options) lines entries) (tables : List Table)
    (metadata : List Text) (table : OpenTable) (number : Int) :
    readLines options { tables, metadata, place := .inside table } number lines =
      .ok {
        tables, metadata
        place := .inside { table with entries := table.entries ++ entries } } := by
  induction body generalizing table number with
  | nil => simp [readLines]
  | cons isBody _ ih =>
      rw [readLines_cons (readLine_body isBody ..), ih]
      simp

theorem readLine_brace (tables : List Table) (metadata : List Text) (table : OpenTable)
    (number : Int) :
    readLine options { tables, metadata, place := .inside table } number ['\x7d'] =
      finishTable options { tables, metadata } table := by
  have brace : Text.trim ['\x7d'] = ['\x7d'] := by decide
  rw [readLine]
  simp only [brace, if_true]
  rfl

theorem readLine_close {table : OpenTable} {closed : Table}
    (close : table.close options = .ok closed) (tables : List Table) (metadata : List Text)
    (number : Int) :
    readLine options { tables, metadata, place := .inside table } number ['\x7d'] =
      .ok { tables := tables ++ [closed], metadata, place := .between [] } := by
  rw [readLine_brace, finishTable, close]
  rfl

/-! ## Whole tables -/

/-- Lines that the reader takes for one table, wherever they stand between others. -/
def Reads (options : ReadOptions) (lines : List Text) (table : Table) : Prop :=
  ∀ tables metadata number,
    readLines options { tables, metadata, place := .between [] } number lines =
      .ok { tables := tables ++ [table], metadata, place := .between [] }

/-- A table is read from its comment lines, its header, its entries and its last line. -/
theorem reads_of_close {heading lines : List Text} {name : Text} {entries : List BodyEntry}
    {closed : Table} (kept : ∀ text ∈ heading, Comment.Kept text) (free : '\n' ∉ name)
    (body : List.Forall₂ (BodyLine options) lines entries)
    (close : ∀ number, OpenTable.close options
      { name, line := number, header := header name, metadata := heading, entries } = .ok closed) :
    Reads options (heading.map Comment.line ++ header name :: (lines ++ [['\x7d']])) closed := by
  intro tables metadata number
  rw [readLines_append (readLines_comments kept tables metadata [] number),
    readLines_cons (readLine_header free ..), readLines_append (readLines_body body ..)]
  simp only [List.nil_append]
  rw [readLines_cons (readLine_close (close _) ..)]
  rfl

/-- Tables with blank lines behind them are read one after the other. -/
theorem readLines_tables {blocks : List (List Text)} {read : List Table}
    (reads : List.Forall₂ (Reads options) blocks read) (tables : List Table)
    (metadata : List Text) (number : Int) :
    readLines options { tables, metadata, place := .between [] } number
        (blocks.flatMap (· ++ [[]])) =
      .ok { tables := tables ++ read, metadata, place := .between [] } := by
  induction reads generalizing tables number with
  | nil => simp [readLines]
  | cons isTable _ ih =>
      rw [List.flatMap_cons, List.append_assoc, readLines_append (isTable tables metadata number),
        List.singleton_append, readLines_cons (readLine_blank ..), List.append_nil, ih]
      simp

end Progress

namespace Table

/-! ## Written tables -/

/-- A table whose lines can be put together, whether or not the reader can tell their parts
apart. -/
structure Joinable (table : Table) : Prop where
  nameFree : Text.LineFree table.name
  annotations : ∀ tag ∈ table.unstatedAnnotations, Comment.Kept tag.render
  metadata : ∀ line ∈ table.metadata, Comment.Kept line
  constraints : ∀ constraint ∈ table.constraints, ∀ name ∈ constraint.columns, Text.LineFree name
  remarks : ∀ remark ∈ table.remarks, Comment.Kept remark
  columns : ∀ column ∈ table.columns, column.Joinable

/-- A table whose lines can be written one by one. -/
structure Writable (options : ReadOptions) (table : Table) : Prop where
  nameFree : Text.LineFree table.name
  annotations : ∀ tag ∈ table.unstatedAnnotations, Comment.Kept tag.render
  metadata : ∀ line ∈ table.metadata, Comment.Kept line
  constraints : ∀ constraint ∈ table.constraints, ∀ name ∈ constraint.columns, Text.LineFree name
  remarks : ∀ remark ∈ table.remarks,
    Comment.Kept remark ∧ BodyEntry.readConstraint options remark = .ok none
  columns : ∀ column ∈ table.columns, column.Writable ∧
    ∀ comment, column.trailingComment? = some comment → column.Fits comment

/-- The comment lines above a written table. -/
def heading (table : Table) (unstated : List TableConstraint) : List Text :=
  table.unstatedAnnotations.map Tag.render ++ table.metadata ++
    unstated.map TableConstraint.render

/-- The lines inside a written table. -/
def body (layout : Layout) (table : Table) : List Text :=
  let indent := List.replicate layout.indent ' '
  table.remarks.map (fun remark => indent ++ Comment.line remark) ++
    (table.writtenColumns layout).map (fun column => indent ++ column.render layout)

/-- The entries that the lines inside a written table are read as. -/
def entries (options : ReadOptions) (layout : Layout) (table : Table) : List BodyEntry :=
  table.remarks.map .remark ++
    (table.writtenColumns layout).map (fun column => .column (column.reread options))

/-- The table that a written table is read as, with the constraints that the comment
lines above it state. -/
def reread (options : ReadOptions) (layout : Layout) (table : Table)
    (unstated : List TableConstraint) (stated : List (Option TableConstraint)) : Table where
  name := table.name
  columns := (table.writtenColumns layout).map (Column.reread options)
  constraints := stated.filterMap id
  annotations := if options.skipAnnotations then [] else Tag.readLines (table.heading unstated)
  metadata := table.heading unstated
  remarks := table.remarks

section Written

variable {options : ReadOptions} {layout : Layout} {table : Table}

theorem writtenColumns_perm (layout : Layout) (table : Table) :
    (table.writtenColumns layout).Perm table.columns := by
  rw [writtenColumns]
  split
  · exact List.mergeSort_perm ..
  · exact List.Perm.refl table.columns

theorem mem_writtenColumns {column : Column} :
    column ∈ table.writtenColumns layout ↔ column ∈ table.columns :=
  (writtenColumns_perm layout table).mem_iff

theorem Writable.joinable (writable : table.Writable options) : table.Joinable :=
  ⟨writable.nameFree, writable.annotations, writable.metadata, writable.constraints,
    fun remark member => (writable.remarks remark member).1, fun column member =>
      (writable.columns column member).1.joinable (writable.columns column member).2⟩

theorem comment_of_render {text : Text} (trimmed : Text.Trimmed text) (filled : text ≠ []) :
    "// ".toList ++ text = Comment.line text :=
  (Comment.line_of_ne_nil trimmed filled).symm

theorem renderLines_eq (tagged : ∀ tag ∈ table.unstatedAnnotations, Text.Trimmed tag.render)
    {unstated : List TableConstraint} (found : table.unstatedConstraints = .ok unstated) :
    table.renderLines layout = .ok ((table.heading unstated).map Comment.line ++
      Progress.header table.name :: (table.body layout ++ [['\x7d']])) := by
  have annotations : table.unstatedAnnotations.map (fun tag => "// ".toList ++ tag.render) =
      (table.unstatedAnnotations.map Tag.render).map Comment.line := by
    rw [List.map_map]
    apply List.map_congr_left
    intro tag member
    rw [Function.comp_apply, comment_of_render (tagged tag member) tag.render_ne_nil]
  have constraints : unstated.map (fun constraint => "// ".toList ++ constraint.render) =
      (unstated.map TableConstraint.render).map Comment.line := by
    rw [List.map_map]
    apply List.map_congr_left
    intro constraint _
    rw [Function.comp_apply, comment_of_render (TableConstraint.trimmed_render constraint)
      (TableConstraint.render_ne_nil constraint)]
  rw [renderLines, found]
  simp only [bind, Except.bind, annotations, constraints]
  refine congrArg Except.ok ?_
  have opens : ["interface ".toList ++ Identifier.render table.name ++ [' ', '\x7b']] =
      [Progress.header table.name] := rfl
  rw [opens]
  simp only [heading, body, List.map_append, List.append_assoc, List.cons_append, List.nil_append]

/-- A remark behind its indent, without the indent. -/
theorem remark_line {remark : Text} (kept : Comment.Kept remark) (layout : Layout) :
    Text.trim (List.replicate layout.indent ' ' ++ Comment.line remark) = Comment.line remark ∧
      Comment.line remark ≠ [] ∧ Comment.line remark ≠ ['\x7d'] := by
  obtain ⟨rest, shape, _, trimmed⟩ := Comment.line_shape kept.trimmed
  refine ⟨Text.trim_blank_append (Text.blank_replicate layout.indent) trimmed, ?_, ?_⟩
  · rw [shape]
    simp
  · rw [shape]
    simp

/-- A column behind its indent, without the indent. -/
theorem column_line {column : Column} (joinable : column.Joinable) (layout : Layout) :
    Text.trim (List.replicate layout.indent ' ' ++ column.render layout) = column.render layout ∧
      column.render layout ≠ [] ∧ column.render layout ≠ ['\x7d'] := by
  have colon := Column.colon_mem_render column layout
  refine ⟨Text.trim_blank_append (Text.blank_replicate layout.indent)
    (Column.trimmed_render layout joinable), List.ne_nil_of_mem colon, ?_⟩
  intro brace
  rw [brace] at colon
  exact absurd colon (by decide)

/-- What the lines inside a written table are read as. -/
theorem bodyLines (writable : table.Writable options) :
    List.Forall₂ (Progress.BodyLine options) (table.body layout) (table.entries options layout) := by
  apply List.rel_append
  · rw [List.forall₂_map_left_iff, List.forall₂_map_right_iff, List.forall₂_same]
    intro remark member
    obtain ⟨kept, isRemark⟩ := writable.remarks remark member
    obtain ⟨line, filled, inside⟩ := remark_line kept layout
    refine ⟨by rw [line]; exact filled, by rw [line]; exact inside, ?_⟩
    intro number
    rw [line, BodyEntry.read, if_pos (Comment.startsHere_line kept.trimmed),
      Comment.content_line kept.trimmed]
    simp only [isRemark]
    rfl
  · rw [List.forall₂_map_left_iff, List.forall₂_map_right_iff, List.forall₂_same]
    intro column member
    obtain ⟨columnWritable, fits⟩ := writable.columns column (mem_writtenColumns.mp member)
    obtain ⟨line, filled, inside⟩ := column_line (columnWritable.joinable fits) layout
    refine ⟨by rw [line]; exact filled, by rw [line]; exact inside, ?_⟩
    intro number
    rw [line]
    exact Column.readEntry_render layout columnWritable fits options number

theorem close_entries {unstated : List TableConstraint} {stated : List (Option TableConstraint)}
    (read : (table.heading unstated).mapM (BodyEntry.readConstraint options) = .ok stated)
    (number : Int) (header : Text) :
    OpenTable.close options
        { name := table.name, line := number, header, metadata := table.heading unstated,
          entries := table.entries options layout } =
      .ok (table.reread options layout unstated stated) := by
  have columns : (table.entries options layout).filterMap BodyEntry.column? =
      (table.writtenColumns layout).map (Column.reread options) := by
    simp [entries, List.filterMap_map, Function.comp_def, BodyEntry.column?]
  have constraints : (table.entries options layout).filterMap BodyEntry.constraint? = [] := by
    simp [entries, List.filterMap_map, Function.comp_def, BodyEntry.constraint?]
  have remarks : (table.entries options layout).filterMap BodyEntry.remark? = table.remarks := by
    simp [entries, List.filterMap_map, Function.comp_def, BodyEntry.remark?]
  simp only [OpenTable.close, read, columns, constraints, remarks, List.append_nil, reread]
  rfl

/-- Every comment line above a written table is read, as a constraint or as free text. -/
theorem exists_read_heading (tagged : ∀ tag ∈ table.unstatedAnnotations, Text.Trimmed tag.render)
    {unstated : List TableConstraint} (found : table.unstatedConstraints = .ok unstated) :
    ∃ read, (table.heading unstated).mapM TableConstraint.read = .ok read := by
  obtain ⟨above, read, _⟩ := exists_of_bind_eq_ok found
  apply exists_mapM_eq_ok
  intro text member
  rw [heading, List.mem_append, List.mem_append] at member
  rcases member with (noted | line) | added
  · obtain ⟨tag, tagMem, rfl⟩ := List.mem_map.mp noted
    exact ⟨none, TableConstraint.read_at (tagged tag tagMem)⟩
  · exact exists_result_of_mem (mapM_eq_ok_iff.mp read) line
  · obtain ⟨constraint, _, rfl⟩ := List.mem_map.mp added
    exact TableConstraint.read_render_ok constraint

theorem exists_stated (writable : table.Writable options) {unstated : List TableConstraint}
    (found : table.unstatedConstraints = .ok unstated) :
    ∃ stated, (table.heading unstated).mapM (BodyEntry.readConstraint options) = .ok stated := by
  obtain ⟨read, success⟩ := exists_read_heading
    (fun tag member => (writable.annotations tag member).trimmed) found
  apply exists_mapM_eq_ok
  intro text member
  obtain ⟨result, readText⟩ := exists_result_of_mem (mapM_eq_ok_iff.mp success) member
  exact ⟨_, BodyEntry.readConstraint_of_read readText options⟩

theorem mem_unstated {unstated : List TableConstraint}
    (found : table.unstatedConstraints = .ok unstated) {constraint : TableConstraint}
    (member : constraint ∈ unstated) : constraint ∈ table.constraints := by
  obtain ⟨_, _, found⟩ := exists_of_bind_eq_ok found
  cases found
  exact (List.mem_filter.mp member).1

/-- What holds of the annotations, the metadata lines and the constraints that are written
above a table holds of all its comment lines. -/
theorem forall_mem_heading {holds : Text → Prop} {unstated : List TableConstraint}
    (annotations : ∀ tag ∈ table.unstatedAnnotations, holds tag.render)
    (metadata : ∀ line ∈ table.metadata, holds line)
    (constraints : ∀ constraint ∈ unstated, holds constraint.render) :
    ∀ text ∈ table.heading unstated, holds text :=
  List.forall_mem_append.mpr ⟨List.forall_mem_append.mpr
    ⟨List.forall_mem_map.mpr annotations, metadata⟩, List.forall_mem_map.mpr constraints⟩

theorem kept_of_mem_heading (joinable : table.Joinable) {unstated : List TableConstraint}
    (found : table.unstatedConstraints = .ok unstated) :
    ∀ text ∈ table.heading unstated, Comment.Kept text := by
  refine forall_mem_heading joinable.annotations joinable.metadata ?_
  intro constraint member
  exact ⟨TableConstraint.trimmed_render constraint, TableConstraint.lineFree_render
    (joinable.constraints constraint (mem_unstated found member))⟩

theorem lineFree_body (joinable : table.Joinable) :
    ∀ line ∈ table.body layout, Text.LineFree line := by
  intro line member
  rw [body, List.mem_append] at member
  rcases member with remarked | stated
  · obtain ⟨remark, remarkMem, rfl⟩ := List.mem_map.mp remarked
    rw [Text.lineFree_append]
    exact ⟨Text.lineFree_replicate layout.indent,
      Comment.lineFree_line (joinable.remarks remark remarkMem).free⟩
  · obtain ⟨column, columnMem, rfl⟩ := List.mem_map.mp stated
    have columnJoinable := joinable.columns column (mem_writtenColumns.mp columnMem)
    rw [Text.lineFree_append]
    exact ⟨Text.lineFree_replicate layout.indent, Column.lineFree_render layout columnJoinable⟩

/-- The table that the lines written for a table are read as. -/
def ReadAs (options : ReadOptions) (layout : Layout) (table second : Table) : Prop :=
  ∃ unstated stated, table.unstatedConstraints = .ok unstated ∧
    (table.heading unstated).mapM (BodyEntry.readConstraint options) = .ok stated ∧
    second = table.reread options layout unstated stated

/-- The lines written for a table are single lines. -/
theorem lineFree_renderLines (joinable : table.Joinable) {lines : List Text}
    (rendered : table.renderLines layout = .ok lines) :
    lines ≠ [] ∧ ∀ line ∈ lines, Text.LineFree line := by
  obtain ⟨unstated, found, _⟩ := exists_of_bind_eq_ok rendered
  rw [renderLines_eq (fun tag member => (joinable.annotations tag member).trimmed) found] at rendered
  cases rendered
  refine ⟨by simp, ?_⟩
  intro line member
  rw [List.mem_append, List.mem_cons, List.mem_append, List.mem_singleton] at member
  rcases member with above | rfl | inside | rfl
  · obtain ⟨text, textMem, rfl⟩ := List.mem_map.mp above
    exact Comment.lineFree_line (kept_of_mem_heading joinable found text textMem).free
  · exact Progress.lineFree_header joinable.nameFree
  · exact lineFree_body joinable line inside
  · decide

theorem reads_renderLines (writable : table.Writable options) {lines : List Text}
    (rendered : table.renderLines layout = .ok lines) :
    ∃ second, table.ReadAs options layout second ∧ Progress.Reads options lines second := by
  obtain ⟨unstated, found, _⟩ := exists_of_bind_eq_ok rendered
  obtain ⟨stated, read⟩ := exists_stated writable found
  rw [renderLines_eq (fun tag member => (writable.annotations tag member).trimmed) found] at rendered
  cases rendered
  refine ⟨_, ⟨unstated, stated, found, read, rfl⟩, ?_⟩
  exact Progress.reads_of_close (kept_of_mem_heading writable.joinable found) writable.nameFree.2
    (bodyLines writable) (fun number => close_entries read number _)

end Written

end Table

namespace Schema

/-! ## Written schemas -/

/-- A schema is written when the metadata lines of its tables can be told from those that
state constraints. -/
theorem exists_render {schema : Schema} (layout : Layout)
    (known : ∀ table ∈ schema.tables, ∃ unstated, table.unstatedConstraints = .ok unstated) :
    ∃ written, schema.render layout = .ok written := by
  obtain ⟨texts, rendered⟩ : ∃ texts, schema.tables.mapM (Table.render layout) = .ok texts := by
    apply exists_mapM_eq_ok
    intro table member
    obtain ⟨unstated, found⟩ := known table member
    rw [Table.render, Table.renderLines, found]
    exact ⟨_, rfl⟩
  rw [Schema.render, rendered]
  exact ⟨_, rfl⟩

/-- The tables of a schema as blocks of lines. -/
theorem exists_blocks {layout : Layout} {tables : List Table} {texts : List Text}
    (rendered : tables.mapM (Table.render layout) = .ok texts) :
    ∃ blocks, tables.mapM (Table.renderLines layout) = .ok blocks ∧
      texts = blocks.map (List.intercalate ['\n']) := by
  rw [mapM_eq_ok_iff] at rendered
  induction rendered with
  | nil => exact ⟨[], rfl, rfl⟩
  | cons written _ ih =>
      obtain ⟨blocks, others, rfl⟩ := ih
      obtain ⟨lines, rendered, written⟩ := exists_of_bind_eq_ok written
      cases written
      refine ⟨lines :: blocks, ?_, rfl⟩
      rw [List.mapM_cons, rendered, others]
      rfl

/-- The comment lines of a schema, as a block of lines unless there are none. -/
def commentBlocks (schema : Schema) : List (List Text) :=
  if schema.metadata.isEmpty then [] else [schema.metadata.map Comment.line]

theorem readLines_commentBlocks {options : ReadOptions} {schema : Schema}
    (kept : ∀ line ∈ schema.metadata, Comment.Kept line) (number : Int) :
    Progress.readLines options {} number (schema.commentBlocks.flatMap (· ++ [[]])) =
      .ok { tables := [], metadata := schema.metadata, place := .between [] } := by
  unfold commentBlocks
  split
  · next empty =>
      rw [List.isEmpty_iff.mp empty]
      rfl
  · rw [List.flatMap_singleton, Progress.readLines_append
      (Progress.readLines_comments kept [] [] [] number),
      Progress.readLines_cons (Progress.readLine_blank ..)]
    rfl

/-- Each block of lines is read as a table. -/
theorem exists_tables {options : ReadOptions} {layout : Layout} {tables : List Table}
    {blocks : List (List Text)} (writable : ∀ table ∈ tables, table.Writable options)
    (rendered : tables.mapM (Table.renderLines layout) = .ok blocks) :
    ∃ read, List.Forall₂ (Table.ReadAs options layout) tables read ∧
      List.Forall₂ (Progress.Reads options) blocks read := by
  rw [mapM_eq_ok_iff] at rendered
  induction rendered with
  | nil => exact ⟨[], List.Forall₂.nil, List.Forall₂.nil⟩
  | @cons table lines tables blocks rendered _ ih =>
      obtain ⟨read, readAs, reads⟩ := ih fun other member => writable other (by simp [member])
      obtain ⟨second, secondAs, secondReads⟩ :=
        Table.reads_renderLines (writable table (by simp)) rendered
      exact ⟨second :: read, List.Forall₂.cons secondAs readAs, List.Forall₂.cons secondReads reads⟩

theorem mem_commentBlocks {schema : Schema} (kept : ∀ line ∈ schema.metadata, Comment.Kept line) :
    ∀ block ∈ schema.commentBlocks, block ≠ [] ∧ ∀ line ∈ block, Text.LineFree line := by
  intro block member
  unfold commentBlocks at member
  split at member
  · cases member
  · next filled =>
      rw [List.mem_singleton] at member
      rw [member]
      refine ⟨by simpa using filled, ?_⟩
      intro line lineMem
      obtain ⟨text, textMem, rfl⟩ := List.mem_map.mp lineMem
      exact Comment.lineFree_line (kept text textMem).free

/-- A written schema is cut into its blocks again, each with a blank line behind it. -/
theorem exists_lines {layout : Layout} {schema : Schema} {written : Text}
    (kept : ∀ line ∈ schema.metadata, Comment.Kept line)
    (joinable : ∀ table ∈ schema.tables, table.Joinable)
    (rendered : schema.render layout = .ok written) :
    ∃ blocks, schema.tables.mapM (Table.renderLines layout) = .ok blocks ∧
      (schema.commentBlocks ++ blocks = [] ∧ written = ['\n'] ∨
        written.lines = (schema.commentBlocks ++ blocks).flatMap (· ++ [[]])) := by
  obtain ⟨texts, tablesRendered, result⟩ := exists_of_bind_eq_ok rendered
  cases result
  obtain ⟨blocks, blocksRendered, rfl⟩ := exists_blocks tablesRendered
  have comments : (if schema.metadata.isEmpty then []
      else [List.intercalate ['\n'] (schema.metadata.map Comment.line)]) =
      schema.commentBlocks.map (List.intercalate ['\n']) := by
    unfold commentBlocks
    split <;> rfl
  have allFree : ∀ block ∈ schema.commentBlocks ++ blocks,
      block ≠ [] ∧ ∀ line ∈ block, Text.LineFree line := by
    intro block member
    rcases List.mem_append.mp member with comment | lines
    · exact mem_commentBlocks kept block comment
    · obtain ⟨table, tableMem, rendered⟩ := exists_of_forall₂ (mapM_eq_ok_iff.mp blocksRendered) lines
      exact Table.lineFree_renderLines (joinable table tableMem) rendered
  refine ⟨blocks, blocksRendered, ?_⟩
  rw [comments, ← List.map_append]
  by_cases empty : schema.commentBlocks ++ blocks = []
  · exact Or.inl ⟨empty, by rw [empty]; rfl⟩
  · exact Or.inr (Text.lines_blocks empty (fun block member => (allFree block member).1)
      (fun block member => (allFree block member).2))

/-- The reader goes through the comment lines and then through the tables. -/
theorem readLines_blocks {options : ReadOptions} {schema : Schema} {blocks : List (List Text)}
    {read : List Table} (kept : ∀ line ∈ schema.metadata, Comment.Kept line)
    (reads : List.Forall₂ (Progress.Reads options) blocks read) :
    Progress.readLines options {} 1 ((schema.commentBlocks ++ blocks).flatMap (· ++ [[]])) =
      .ok { tables := read, metadata := schema.metadata, place := .between [] } := by
  rw [List.flatMap_append, Progress.readLines_append (readLines_commentBlocks kept 1),
    Progress.readLines_tables reads]
  rfl

/-- A written schema is read back, table by table. -/
theorem read_render {options : ReadOptions} {layout : Layout} {schema : Schema} {written : Text}
    (kept : ∀ line ∈ schema.metadata, Comment.Kept line)
    (writable : ∀ table ∈ schema.tables, table.Writable options)
    (rendered : schema.render layout = .ok written) :
    ∃ second, Schema.read options written = .ok second ∧ second.metadata = schema.metadata ∧
      second.annotations = (if options.skipAnnotations then [] else Tag.readLines schema.metadata) ∧
      List.Forall₂ (Table.ReadAs options layout) schema.tables second.tables := by
  obtain ⟨blocks, blocksRendered, cut⟩ := exists_lines kept
    (fun table member => (writable table member).joinable) rendered
  obtain ⟨read, readAs, reads⟩ := exists_tables writable blocksRendered
  have run := readLines_blocks kept reads
  refine ⟨{
    tables := read
    metadata := schema.metadata
    annotations := if options.skipAnnotations then [] else Tag.readLines schema.metadata
  }, ?_, rfl, rfl, readAs⟩
  rw [Schema.read]
  rcases cut with ⟨empty, rfl⟩ | lines
  · rw [empty] at run
    obtain ⟨noTables, noMetadata, _⟩ := Progress.mk.inj (Except.ok.inj run)
    rw [← noTables, ← noMetadata]
    rfl
  · rw [lines, run]
    simp only [bind, Except.bind, Progress.finish, List.append_nil]
    rfl

end Schema

end SchemaNotation
