import SchemaNotation.Proofs.Render
import SchemaNotation.Proofs.Step

/-!
# Written text that is read

Not every column can be written: a name may hide the comment in a literal, or start one.
The reader then finds no column in the line.  So whenever it finds one, the line of the
column was cut where it was put together, behind the name, behind the colon and in front
of the comment.  And when a whole document is read, this is so for all of its columns.
-/

namespace SchemaNotation

/-! ## What keeps the search for a comment in place -/

/-- No comment starts in a text that is read as a type, and it ends outside of literals
when it starts there. -/
theorem ColumnType.quiet_text {text : Text} {type : ColumnType}
    (found : read text = .ok (some type)) :
    Comment.Quiet false text ∧
      ∀ inLiteral, Comment.endsInLiteral inLiteral text = inLiteral := by
  have denotes := read_eq_ok_iff.mp found
  have silent : Comment.Quiet false (Text.trim text) := (denotes.quiet false).1.mpr (by simp [Quiet])
  obtain ⟨before, after, beforeBlank, afterBlank, shape⟩ := Text.trim_split text
  have noSlash : ∀ {blanks : Text}, Text.Blank blanks → '/' ∉ blanks :=
    Text.not_mem_of_blank (by decide)
  rw [shape]
  constructor
  · rw [Comment.quiet_plain_append (noSlash beforeBlank) (Comment.clear_of_blank beforeBlank),
      Comment.quiet_append_plain (noSlash afterBlank)]
    exact silent
  · intro inLiteral
    rw [Comment.endsInLiteral_middle (Comment.clear_of_blank beforeBlank)
      (Comment.clear_of_blank afterBlank), (denotes.quiet inLiteral).2]

namespace Column

/-! ## Where the parts of a line stand -/

/-- Blanks and semicolons, which may stand behind a type. -/
def Slack (text : Text) : Prop :=
  ∀ c ∈ text, isBlank c = true ∨ c = ';'

/-- What a definition consists of. -/
theorem Defines.exists_parts {text name : Text} {nullable : Bool} {type : ColumnType}
    (defines : Defines text name nullable type) :
    ∃ identifier before typeText slack, Identifier.Denotes identifier name ∧ Text.Blank before ∧
      ColumnType.read typeText = .ok (some type) ∧ Slack slack ∧
      text = identifier ++
        ((if nullable then ['?'] else []) ++ (before ++ ':' :: (typeText ++ slack))) := by
  obtain ⟨nullable, identified, beforeBlank, behindBlank, typed, blank, ends⟩ := defines
  next identifier before behind typeText blanks ending =>
    refine ⟨identifier, before, behind ++ typeText, blanks ++ ending, identified, beforeBlank, ?_, ?_,
      by simp⟩
    · rw [ColumnType.read_eq_ok_iff, Text.trim_blank_append behindBlank typed.trimmed]
      exact typed
    · intro c member
      rcases List.mem_append.mp member with inBlanks | inEnding
      · exact Or.inl (blank c inBlanks)
      · rcases ends with rfl | rfl
        · cases inEnding
        · exact Or.inr (List.mem_singleton.mp inEnding)

/-- What stands in front of the colon has no further colon. -/
theorem no_colon_before (nullable : Bool) {blanks : Text} (blank : Text.Blank blanks) :
    ∀ c ∈ (if nullable then ['?'] else []) ++ blanks, (c != ':') = true := by
  intro c member
  rw [bne_iff_ne]
  rintro rfl
  have outside : ':' ∉ blanks := Text.not_mem_of_blank (by decide) blank
  cases nullable <;> simp [outside] at member

/-- Behind a name there is one way to find the mark and the colon. -/
theorem eq_of_marked {before after type behind : Text} {nullable marked : Bool}
    (beforeBlank : Text.Blank before) (afterBlank : Text.Blank after)
    (same : (if nullable then ['?'] else []) ++ (before ++ ':' :: type) =
      (if marked then ['?'] else []) ++ (after ++ ':' :: behind)) :
    nullable = marked ∧ type = behind := by
  have stops : ∀ rest, Text.Stops (· != ':') (':' :: rest) :=
    fun rest => Text.stops_cons.mpr (by decide)
  rw [← List.append_assoc, ← List.append_assoc] at same
  have fronts := congrArg (List.takeWhile (· != ':')) same
  have backs := congrArg (List.dropWhile (· != ':')) same
  rw [Text.takeWhile_append_of_stops (no_colon_before nullable beforeBlank) (stops type),
    Text.takeWhile_append_of_stops (no_colon_before marked afterBlank) (stops behind)] at fronts
  rw [Text.dropWhile_append_of_stops (no_colon_before nullable beforeBlank) (stops type),
    Text.dropWhile_append_of_stops (no_colon_before marked afterBlank) (stops behind)] at backs
  have noMark : ∀ {blanks : Text}, Text.Blank blanks → '?' ∉ blanks :=
    Text.not_mem_of_blank (by decide)
  have marks : '?' ∈ (if nullable then ['?'] else []) ++ before ↔
      '?' ∈ (if marked then ['?'] else []) ++ after := by
    rw [fronts]
  refine ⟨?_, (List.cons.inj backs).2⟩
  cases nullable <;> cases marked <;> simp [noMark beforeBlank, noMark afterBlank] at marks ⊢

/-- A text has at most one name with a colon behind it. -/
theorem eq_of_named {first second name found before after type behind : Text}
    {nullable marked : Bool} (firstName : Identifier.Denotes first name)
    (secondName : Identifier.Denotes second found) (beforeBlank : Text.Blank before)
    (afterBlank : Text.Blank after)
    (same : first ++ ((if nullable then ['?'] else []) ++ (before ++ ':' :: type)) =
      second ++ ((if marked then ['?'] else []) ++ (after ++ ':' :: behind))) :
    name = found ∧ nullable = marked ∧ type = behind := by
  have left := firstName.read? (stops_backtick_behind_name nullable beforeBlank type)
    (stops_behind_name (by decide) (by decide) isContinue_of_isBlank nullable beforeBlank type)
  have right := secondName.read? (stops_backtick_behind_name marked afterBlank behind)
    (stops_behind_name (by decide) (by decide) isContinue_of_isBlank marked afterBlank behind)
  rw [same, right, Option.some.injEq, Prod.mk.injEq] at left
  exact ⟨left.1.symm, eq_of_marked beforeBlank afterBlank left.2.symm⟩

/-! ## The line of a column -/

/-- The line of a column: its label, spaces, its type and a semicolon, and the comment
behind further spaces. -/
theorem render_parts (column : Column) (layout : Layout) :
    ∃ gap after, column.render layout =
        Identifier.render column.name ++ ((if column.nullable then ['?'] else []) ++
          ':' :: (List.replicate gap ' ' ++ (column.type.render ++ ';' :: after))) ∧
      ∀ comment, column.trailingComment? = some comment →
        ∃ width, after = List.replicate width ' ' ++ '/' :: '/' :: ' ' :: comment := by
  obtain ⟨gap, shape⟩ := definition_shape layout column
  cases stated : column.trailingComment? with
  | none =>
      refine ⟨gap + 1, [], ?_, by simp⟩
      rw [render_of_silent stated, shape, label]
      simp
  | some comment =>
      obtain ⟨width, written⟩ := render_of_comment stated layout
      refine ⟨gap + 1, List.replicate (width + 1) ' ' ++ '/' :: '/' :: ' ' :: comment, ?_, ?_⟩
      · rw [written, shape, label]
        simp
      · intro other same
        cases same
        exact ⟨width + 1, rfl⟩

/-- No type text has the comment of a column in it. -/
theorem no_comment_in_type {gap width : Nat} {type found : ColumnType} {text slack comment : Text}
    (valid : type.Valid) (isSlack : Slack slack)
    (shape : text ++ slack = List.replicate gap ' ' ++
      (type.render ++ ';' :: (List.replicate width ' ' ++ '/' :: '/' :: ' ' :: comment)))
    (read : ColumnType.read text = .ok (some found)) : False := by
  -- The slashes are no slack, so the text goes on at least up to them.
  obtain ⟨rest, rfl⟩ : ∃ rest, text = List.replicate gap ' ' ++
      (type.render ++ ';' :: List.replicate width ' ') ++ '/' :: '/' :: rest := by
    have regroup : text ++ slack = (List.replicate gap ' ' ++
        (type.render ++ ';' :: List.replicate width ' ') ++ ['/', '/']) ++ ' ' :: comment := by
      rw [shape]
      simp
    obtain ⟨cut, equal, rfl⟩ | ⟨rest, rfl, _⟩ := List.append_eq_append_iff.mp regroup
    · by_cases whole : cut = []
      · rw [whole, List.append_nil] at equal
        exact ⟨[], equal.symm⟩
      · have last := congrArg List.getLast? equal
        rw [List.getLast?_append_of_ne_nil _ whole, List.getLast?_append_of_ne_nil _ (by simp)] at last
        have member : '/' ∈ cut := List.mem_of_getLast? last.symm
        exact absurd (isSlack '/' (by simp [member])) (by decide)
    · exact ⟨rest, by simp⟩
  have quiet := (Comment.quiet_of_quiet_append (ColumnType.quiet_text read).1).2
  have clear : ∀ count, apostrophe ∉ List.replicate count ' ' :=
    fun count => Comment.clear_of_blank (Text.blank_replicate count)
  have semicolonClear : apostrophe ∉ ';' :: List.replicate width ' ' :=
    List.not_mem_cons_of_ne_of_not_mem (by decide) (clear width)
  have typeEnds := (ColumnType.quiet_text (ColumnType.read_render valid)).2 false
  rw [Comment.endsInLiteral_middle (clear gap) semicolonClear, typeEnds,
    Comment.quiet_cons (by decide), Comment.startsHere_slashes] at quiet
  exact absurd (quiet.1 rfl) (by decide)

variable {column second : Column} {layout : Layout} {options : ReadOptions} {number : Int}

/-- Where the reader cuts the line of a column: the text of a type stands behind the name and
the colon, and behind it stand blanks and semicolons, and the comment if one is found. -/
theorem Joinable.exists_cut (joinable : column.Joinable)
    (found : read options number (column.render layout) = .ok second) :
    ∃ text slack rest, (∃ type, ColumnType.read text = .ok (some type)) ∧ Slack slack ∧
      column.render layout = Identifier.render column.name ++
        ((if column.nullable then ['?'] else []) ++ ':' :: (text ++ (slack ++ rest))) ∧
      Comment.Quiet false column.name ∧
      (rest = [] ∧ Comment.Quiet false (column.render layout) ∨
        Comment.endsInLiteral false column.name = false) := by
  have trimmed := trimmed_render layout joinable
  obtain ⟨definition, comment, divides⟩ := Comment.exists_divides (Text.trim (column.render layout))
  obtain ⟨defines, _⟩ := (read_eq_ok_iff divides).mp found
  rw [trimmed.trim_eq] at divides
  obtain ⟨quietIff, ends⟩ := defines.quiet
  rw [Comment.endsInLiteral_trim] at ends
  obtain ⟨identifier, before, text, slack, identified, beforeBlank, typed, isSlack, shape⟩ :=
    defines.exists_parts
  obtain ⟨rest, whole, ending⟩ := divides.exists_behind
  -- The line is trimmed, so the definition starts where the line does.
  obtain ⟨lead, after, leadBlank, afterBlank, padded⟩ := Text.trim_split definition
  have noLead : lead = [] := by
    cases lead with
    | nil => rfl
    | cons c lead =>
        have solid := trimmed.first c (by rw [whole, padded]; rfl)
        exact absurd List.mem_cons_self (Text.not_mem_of_blank solid leadBlank)
  rw [noLead, List.nil_append] at padded
  obtain ⟨gap, behind, written, _⟩ := render_parts column layout
  have nothing : Text.Blank [] := List.forall_mem_nil _
  have same : Identifier.render column.name ++ ((if column.nullable then ['?'] else []) ++
      ([] ++ ':' :: (List.replicate gap ' ' ++ (column.type.render ++ ';' :: behind)))) =
      identifier ++ ((if second.nullable then ['?'] else []) ++
        (before ++ ':' :: (text ++ ((slack ++ after) ++ rest)))) := by
    rw [List.nil_append, ← written, whole]
    conv_lhs => rw [padded, shape]
    simp
  obtain ⟨named, _, cut⟩ :=
    eq_of_named (Identifier.unambiguous_of_free joinable.nameFree.2).denotes_render identified nothing
      beforeBlank same
  refine ⟨text, slack ++ after, rest, ⟨second.type, typed⟩, ?_, ?_, ?_, ?_⟩
  · exact List.forall_mem_append.mpr ⟨isSlack, fun c member => Or.inl (afterBlank c member)⟩
  · rw [written, cut]
  · rw [named]
    exact (quietIff.mp (Comment.quiet_trim divides.quiet)).1
  · rw [named, ← ends]
    exact ending

/-- In a line without a comment no comment starts in the type. -/
theorem Joinable.quiet_type (joinable : column.Joinable)
    (quiet : Comment.Quiet false (column.render layout)) :
    column.type.Quiet (Comment.endsInLiteral false column.name) := by
  obtain ⟨rest, written⟩ := render_shape column layout
  rw [written] at quiet
  have defines := defines_definition layout joinable.nameFree.2 joinable.typeValid
  exact (defines.quiet.1.mp (Comment.quiet_of_quiet_append quiet).1).2

/-- A column whose line is read can be written. -/
theorem Joinable.writable_of_read (joinable : column.Joinable)
    (found : read options number (column.render layout) = .ok second) :
    column.Writable ∧ ∀ comment, column.trailingComment? = some comment → column.Fits comment := by
  obtain ⟨text, slack, rest, ⟨type, typed⟩, isSlack, cut, nameQuiet, ending⟩ :=
    joinable.exists_cut found
  constructor
  · refine ⟨joinable.nameFree, nameQuiet, joinable.typeValid, joinable.typeFree, ?_⟩
    rcases ending with ⟨_, quiet⟩ | outside
    · exact joinable.quiet_type quiet
    · rw [outside]
      intro inside
      cases inside
  · intro comment stated
    obtain ⟨filled, trimmed, free⟩ := joinable.comment comment stated
    refine ⟨filled, trimmed, free, ?_⟩
    rcases ending with ⟨rfl, _⟩ | outside
    · -- The reader found no comment, so the one that is there stands in the text of the type.
      obtain ⟨gap, after, written, commented⟩ := render_parts column layout
      obtain ⟨width, rfl⟩ := commented comment stated
      rw [cut, List.append_cancel_left_eq, List.append_cancel_left_eq, List.cons.injEq,
        List.append_nil] at written
      exact (no_comment_in_type joinable.typeValid isSlack written.2 typed).elim
    · exact outside

end Column

/-! ## Entries of a written table -/

namespace Progress

variable {options : ReadOptions} {final : Progress}

/-- Inside a table every line is read that is neither blank nor the closing brace. -/
theorem exists_of_readLines_body {lines rest : List Text}
    (filled : ∀ line ∈ lines, Text.trim line ≠ [] ∧ Text.trim line ≠ ['\x7d'])
    {tables : List Table} {metadata : List Text} {table : OpenTable} {number : Int}
    (run : readLines options { tables, metadata, place := .inside table } number (lines ++ rest) =
      .ok final) :
    (∀ line ∈ lines, ∃ number entry, BodyEntry.read options number (Text.trim line) = .ok entry) ∧
      ∃ table number, readLines options { tables, metadata, place := .inside table } number rest =
        .ok final := by
  induction lines generalizing table number with
  | nil => exact ⟨List.forall_mem_nil _, table, number, run⟩
  | cons line lines ih =>
      rw [List.cons_append] at run
      obtain ⟨next, step, run⟩ := exists_of_bind_eq_ok run
      obtain ⟨lineFilled, inside⟩ := filled line (by simp)
      cases step_of_readLine step with
      | closes brace => exact (inside brace).elim
      | skips empty => exact (lineFilled empty).elim
      | entry _ _ read =>
          obtain ⟨others, onward⟩ := ih (fun other member => filled other (by simp [member])) run
          exact ⟨List.forall_mem_cons.mpr ⟨⟨number, _, read⟩, others⟩, onward⟩

/-- The lines of a table lead back to where the table started. -/
theorem exists_of_readLines_table {heading body rest : List Text} {name : Text}
    (kept : ∀ text ∈ heading, Comment.Kept text) (free : '\n' ∉ name)
    (filled : ∀ line ∈ body, Text.trim line ≠ [] ∧ Text.trim line ≠ ['\x7d'])
    {tables : List Table} {metadata : List Text} {number : Int}
    (run : readLines options { tables, metadata, place := .between [] } number
      (heading.map Comment.line ++ header name :: (body ++ [['\x7d']]) ++ [] :: rest) = .ok final) :
    (∀ line ∈ body, ∃ number entry, BodyEntry.read options number (Text.trim line) = .ok entry) ∧
      ∃ tables number, readLines options { tables, metadata, place := .between [] } number rest =
        .ok final := by
  rw [List.append_assoc, readLines_append (readLines_comments kept tables metadata [] number),
    List.cons_append, readLines_cons (readLine_header free ..), List.append_assoc] at run
  obtain ⟨entries, table, _, run⟩ := exists_of_readLines_body filled run
  refine ⟨entries, ?_⟩
  rw [List.singleton_append] at run
  obtain ⟨next, step, run⟩ := exists_of_bind_eq_ok run
  cases step_of_readLine step with
  | closes _ close =>
      rw [readLines_cons (readLine_blank ..), List.append_nil] at run
      exact ⟨_, _, run⟩
  | skips empty => exact absurd empty (by decide)
  | entry stays => exact (stays (by decide)).elim

end Progress

namespace Table

variable {options : ReadOptions} {layout : Layout} {table second : Table}

theorem filled_body (joinable : table.Joinable) :
    ∀ line ∈ table.body layout, Text.trim line ≠ [] ∧ Text.trim line ≠ ['\x7d'] := by
  intro line member
  rcases List.mem_append.mp member with remarked | stated
  · obtain ⟨remark, remarkMem, rfl⟩ := List.mem_map.mp remarked
    obtain ⟨equal, filled⟩ := remark_line (joinable.remarks remark remarkMem) layout
    rw [equal]
    exact filled
  · obtain ⟨column, columnMem, rfl⟩ := List.mem_map.mp stated
    obtain ⟨equal, filled⟩ :=
      column_line (joinable.columns column (mem_writtenColumns.mp columnMem)) layout
    rw [equal]
    exact filled

/-- When the lines of some tables are read, each line inside a table is read as an entry. -/
theorem exists_entries {tables : List Table} {blocks : List (List Text)}
    (joinable : ∀ table ∈ tables, table.Joinable)
    (rendered : tables.mapM (renderLines layout) = .ok blocks) {before : List Table}
    {metadata : List Text} {number : Int} {final : Progress}
    (run : Progress.readLines options { tables := before, metadata, place := .between [] } number
      (blocks.flatMap (· ++ [[]])) = .ok final) :
    ∀ table ∈ tables, ∀ line ∈ table.body layout,
      ∃ number entry, BodyEntry.read options number (Text.trim line) = .ok entry := by
  rw [mapM_eq_ok_iff] at rendered
  induction rendered generalizing before number with
  | nil => exact List.forall_mem_nil _
  | @cons table lines tables blocks rendered _ ih =>
      have known := joinable table (by simp)
      obtain ⟨unstated, found, _⟩ := exists_of_bind_eq_ok rendered
      rw [renderLines_eq (fun tag member => (known.annotations tag member).trimmed) found] at rendered
      cases rendered
      rw [List.flatMap_cons, List.append_assoc, List.singleton_append] at run
      obtain ⟨entries, _, _, run⟩ := Progress.exists_of_readLines_table
        (kept_of_mem_heading known found) known.nameFree.2 (filled_body known) run
      exact List.forall_mem_cons.mpr
        ⟨entries, ih (fun other member => joinable other (by simp [member])) run⟩

/-- A table whose entries are all read can be written, when its remarks state no
constraints. -/
theorem Joinable.writable (joinable : table.Joinable)
    (unstated : ∀ remark ∈ table.remarks, ∀ stated,
      BodyEntry.readConstraint options remark ≠ .ok (some stated))
    (entries : ∀ line ∈ table.body layout,
      ∃ number entry, BodyEntry.read options number (Text.trim line) = .ok entry) :
    table.Writable options where
  nameFree := joinable.nameFree
  annotations := joinable.annotations
  metadata := joinable.metadata
  constraints := joinable.constraints
  remarks := by
    intro remark member
    have kept := joinable.remarks remark member
    obtain ⟨equal, _⟩ := remark_line kept layout
    obtain ⟨number, entry, read⟩ := entries _ (List.mem_append_left _ (List.mem_map_of_mem member))
    rw [equal, BodyEntry.read, if_pos (Comment.startsHere_line kept.trimmed),
      Comment.content_line kept.trimmed] at read
    obtain ⟨stated?, found, _⟩ := exists_of_bind_eq_ok read
    cases stated? with
    | none => exact ⟨kept, found⟩
    | some stated => exact (unstated remark member stated found).elim
  columns := by
    intro column member
    have known := joinable.columns column member
    obtain ⟨equal, _⟩ := column_line known layout
    obtain ⟨number, entry, read⟩ := entries _ (List.mem_append_right _
      (List.mem_map_of_mem (mem_writtenColumns.mpr member)))
    rw [equal, BodyEntry.read, Column.startsHere_render layout known.nameFree.2] at read
    split at read
    · contradiction
    · split at read
      · obtain ⟨found, readColumn, _⟩ := exists_of_bind_eq_ok read
        exact known.writable_of_read readColumn
      · cases read

end Table

/-- A schema whose text is read can be written, when no remark states a constraint. -/
theorem Schema.writable_of_read {options : ReadOptions} {layout : Layout} {schema second : Schema}
    {written : Text} (kept : ∀ line ∈ schema.metadata, Comment.Kept line)
    (joinable : ∀ table ∈ schema.tables, table.Joinable)
    (unstated : ∀ table ∈ schema.tables, ∀ remark ∈ table.remarks, ∀ stated,
      BodyEntry.readConstraint options remark ≠ .ok (some stated))
    (rendered : schema.render layout = .ok written)
    (read : Schema.read options written = .ok second) :
    ∀ table ∈ schema.tables, table.Writable options := by
  obtain ⟨blocks, blocksRendered, cut⟩ := Schema.exists_lines kept joinable rendered
  obtain ⟨final, run, _⟩ := exists_of_bind_eq_ok read
  intro table member
  rcases cut with ⟨empty, _⟩ | lines
  · obtain ⟨block, blockMem, _⟩ := exists_of_forall₂ (mapM_eq_ok_iff.mp blocksRendered).flip member
    rw [(List.append_eq_nil_iff.mp empty).2] at blockMem
    cases blockMem
  · rw [lines, List.flatMap_append,
      Progress.readLines_append (Schema.readLines_commentBlocks kept 1)] at run
    exact (joinable table member).writable (unstated table member)
      (Table.exists_entries joinable blocksRendered run table member)

end SchemaNotation
