import SchemaNotation.Document
import SchemaNotation.Proofs.ColumnLine
import SchemaNotation.Render

/-!
# Written columns read back

A column can be written when no comment starts in the line before the place where one
is meant to start.  A column that was read can be written, and reading the line
written for a column gives the column back, with the facts that its comment states.
Of a column that has nothing but its definition it is known exactly when that happens.
-/

namespace SchemaNotation.Column

/-- A column whose definition can be written on one line.  No comment starts in its
name, and none starts in its type, also when the name ends inside a literal. -/
structure Writable (column : Column) : Prop where
  nameFree : Text.LineFree column.name
  nameQuiet : Comment.Quiet false column.name
  typeValid : column.type.Valid
  typeFree : ∀ string ∈ column.type.strings, Text.LineFree string
  typeQuiet : column.type.Quiet (Comment.endsInLiteral false column.name)

/-- A comment that can stand behind the definition of a column. -/
structure Fits (column : Column) (comment : Text) : Prop where
  nonempty : comment ≠ []
  trimmed : Text.Trimmed comment
  free : Text.LineFree comment
  outside : Comment.endsInLiteral false column.name = false

/-- A column whose parts can be put on one line, whether or not the reader can tell them
apart. -/
structure Joinable (column : Column) : Prop where
  nameFree : Text.LineFree column.name
  typeValid : column.type.Valid
  typeFree : ∀ string ∈ column.type.strings, Text.LineFree string
  comment : ∀ comment, column.trailingComment? = some comment →
    comment ≠ [] ∧ Text.Trimmed comment ∧ Text.LineFree comment

theorem Writable.joinable {column : Column} (writable : column.Writable)
    (fits : ∀ comment, column.trailingComment? = some comment → column.Fits comment) :
    column.Joinable :=
  ⟨writable.nameFree, writable.typeValid, writable.typeFree, fun comment stated =>
    ⟨(fits comment stated).nonempty, (fits comment stated).trimmed, (fits comment stated).free⟩⟩

/-- The column that the line written for a column states. -/
def reread (options : ReadOptions) (column : Column) : Column :=
  let stated := column.trailingComment?.getD []
  { column with
    comment := column.trailingComment?
    constraints := if options.skipConstraints then [] else Constraint.readAll stated
    annotations := if options.skipAnnotations then [] else Tag.readAll stated }

/-! ## The line of a column -/

theorem padRight_shape (width : Nat) (text : Text) :
    ∃ gap, Text.padRight (max width (text.length + 1)) text =
      text ++ List.replicate (gap + 1) ' ' := by
  refine ⟨max width (text.length + 1) - text.length - 1, ?_⟩
  rw [Text.padRight]
  congr 2
  omega

/-- The definition of a column: its label, spaces, its type and a semicolon. -/
theorem definition_shape (layout : Layout) (column : Column) :
    ∃ gap, column.definition layout =
      column.label ++ (List.replicate (gap + 1) ' ' ++ column.type.render) ++ [';'] := by
  cases aligned : layout.alignTypes with
  | true =>
      obtain ⟨gap, padded⟩ := padRight_shape (layout.typeAlignment - layout.indent) column.label
      refine ⟨gap, ?_⟩
      simp only [definition, aligned, if_true, padded, List.append_assoc]
  | false =>
      refine ⟨0, ?_⟩
      simp [definition, aligned, Text.padRight]

theorem render_of_silent {layout : Layout} {column : Column}
    (silent : column.trailingComment? = none) :
    column.render layout = column.definition layout := by
  simp only [render, silent]

theorem render_of_comment {column : Column} {comment : Text}
    (stated : column.trailingComment? = some comment) (layout : Layout) :
    ∃ gap, column.render layout =
      column.definition layout ++ List.replicate (gap + 1) ' ' ++ '/' :: '/' :: ' ' :: comment := by
  obtain ⟨gap, padded⟩ := padRight_shape (layout.commentAlignment - layout.indent)
    (column.definition layout)
  refine ⟨gap, ?_⟩
  simp only [render, stated, padded]
  simp

/-- The line of a column says no more than its label, its type and its comment do. -/
theorem render_congr {column other : Column} (label : column.label = other.label)
    (type : column.type.render = other.type.render)
    (comment : column.trailingComment? = other.trailingComment?) (layout : Layout) :
    column.render layout = other.render layout := by
  simp only [render, definition, label, type, comment]

theorem render_shape (column : Column) (layout : Layout) :
    ∃ rest, column.render layout = column.definition layout ++ rest := by
  cases stated : column.trailingComment? with
  | none => exact ⟨[], by rw [render_of_silent stated, List.append_nil]⟩
  | some comment =>
      obtain ⟨gap, written⟩ := render_of_comment stated layout
      exact ⟨_, written.trans (List.append_assoc ..)⟩

theorem colon_mem_render (column : Column) (layout : Layout) : ':' ∈ column.render layout := by
  obtain ⟨rest, written⟩ := render_shape column layout
  obtain ⟨gap, shape⟩ := definition_shape layout column
  rw [written, shape, label]
  simp

section Written

variable {column : Column} (layout : Layout)

theorem trimmed_definition (free : '\n' ∉ column.name) :
    Text.Trimmed (column.definition layout) := by
  obtain ⟨gap, shape⟩ := definition_shape layout column
  constructor
  · rw [shape, label, List.append_assoc, List.append_assoc, List.append_assoc]
    exact Identifier.stops_render (by decide) (fun _ => isBlank_of_isWord) free _
  · intro c found
    rw [shape, List.getLast?_concat] at found
    cases found
    decide

/-- The written definition of a column defines the column. -/
theorem defines_definition (free : '\n' ∉ column.name) (valid : column.type.Valid) :
    Defines (column.definition layout) column.name column.nullable column.type := by
  obtain ⟨gap, shape⟩ := definition_shape layout column
  have nothing : Text.Blank [] := List.forall_mem_nil _
  have regroup : column.definition layout =
      Identifier.render column.name ++ ((if column.nullable then ['?'] else []) ++
        ([] ++ ':' :: (List.replicate (gap + 1) ' ' ++ (column.type.render ++ ([] ++ [';']))))) := by
    rw [shape, label]
    simp
  rw [regroup]
  exact .intro column.nullable (Identifier.unambiguous_of_free free).denotes_render nothing
    (Text.blank_replicate (gap + 1)) (ColumnType.denotes_render valid) nothing (Or.inr rfl)

/-- No comment starts in a definition, and it ends inside a literal as its name does. -/
theorem quiet_definition (writable : column.Writable) :
    Comment.Quiet false (column.definition layout) ∧
      Comment.endsInLiteral false (column.definition layout) =
        Comment.endsInLiteral false column.name := by
  obtain ⟨quiet, ends⟩ :=
    (defines_definition layout writable.nameFree.2 writable.typeValid).quiet
  exact ⟨quiet.mpr ⟨writable.nameQuiet, writable.typeQuiet⟩, ends⟩

/-- The comment of a written line starts where it was meant to. -/
theorem split_render (writable : column.Writable)
    (fits : ∀ comment, column.trailingComment? = some comment → column.Fits comment) :
    ∃ gap, Comment.split (column.render layout) =
      (column.definition layout ++ List.replicate gap ' ',
        column.trailingComment?.map (' ' :: ·)) := by
  obtain ⟨quiet, ends⟩ := quiet_definition layout writable
  cases stated : column.trailingComment? with
  | none =>
      refine ⟨0, ?_⟩
      rw [render_of_silent stated, Comment.split_of_silent quiet, List.replicate_zero,
        List.append_nil]
      rfl
  | some comment =>
      obtain ⟨gap, written⟩ := render_of_comment stated layout
      refine ⟨gap + 1, ?_⟩
      rw [written, Comment.split_of_quiet quiet (ends.trans (fits comment stated).outside)]
      rfl

theorem trimmed_render (joinable : column.Joinable) : Text.Trimmed (column.render layout) := by
  have whole := trimmed_definition layout joinable.nameFree.2
  cases trailing : column.trailingComment? with
  | none =>
      rw [render_of_silent trailing]
      exact whole
  | some comment =>
      obtain ⟨nonempty, trimmed, _⟩ := joinable.comment comment trailing
      obtain ⟨gap, written⟩ := render_of_comment trailing layout
      obtain ⟨_, shape⟩ := definition_shape layout column
      have filled : column.definition layout ≠ [] := by
        rw [shape]
        simp
      constructor
      · intro c found
        rw [written, List.append_assoc, List.head?_append_of_ne_nil _ filled] at found
        exact whole.first c found
      · intro c found
        rw [written, List.getLast?_append_of_ne_nil _ (by simp),
          List.getLast?_cons_of_ne_nil (by simp), List.getLast?_cons_of_ne_nil (by simp),
          List.getLast?_cons_of_ne_nil nonempty] at found
        exact trimmed.last c found

theorem lineFree_render (joinable : column.Joinable) : Text.LineFree (column.render layout) := by
  obtain ⟨gap, shape⟩ := definition_shape layout column
  have whole : Text.LineFree (column.definition layout) := by
    have name := Identifier.lineFree_render joinable.nameFree
    have type := ColumnType.lineFree_render joinable.typeFree
    have spaces := Text.lineFree_replicate (gap + 1)
    cases optional : column.nullable with
    | true => simp [shape, label, optional, name, type, spaces]
    | false => simp [shape, label, optional, name, type, spaces]
  cases stated : column.trailingComment? with
  | none =>
      rw [render_of_silent stated]
      exact whole
  | some comment =>
      obtain ⟨behind, written⟩ := render_of_comment stated layout
      have spaces := Text.lineFree_replicate (behind + 1)
      simp [written, whole, spaces, (joinable.comment comment stated).2.2]

/-- Reading the line written for a column gives the column that the line states. -/
theorem read_render (writable : column.Writable)
    (fits : ∀ comment, column.trailingComment? = some comment → column.Fits comment)
    (options : ReadOptions) (number : Int) :
    read options number (column.render layout) = .ok (column.reread options) := by
  obtain ⟨gap, split⟩ := split_render layout writable fits
  have divides := Comment.split_eq_iff.mp split
  have trimmed := trimmed_render layout (writable.joinable fits)
  rw [← trimmed.trim_eq] at divides
  apply (read_eq_ok_iff divides).mpr
  refine ⟨?_, ?_, rfl, rfl⟩
  · rw [Text.trim_append_blank (Text.blank_replicate gap)
      (trimmed_definition layout writable.nameFree.2)]
    exact defines_definition layout writable.nameFree.2 writable.typeValid
  · refine (commentOf_spaced ?_).symm
    intro comment stated
    exact ⟨(fits comment stated).nonempty, (fits comment stated).trimmed⟩

/-- The line of a column is no comment line. -/
theorem startsHere_render (free : '\n' ∉ column.name) :
    Comment.startsHere (column.render layout) = false := by
  obtain ⟨_, shape⟩ := definition_shape layout column
  obtain ⟨rest, written⟩ := render_shape column layout
  apply Comment.startsHere_of_stops
  rw [written, shape, label]
  simp only [List.append_assoc]
  apply Identifier.stops_render (by decide) _ free
  intro c word
  rw [beq_eq_false_iff_ne]
  rintro rfl
  exact absurd word (by decide)

/-- The reader of a table body takes the line of a column for one. -/
theorem readEntry_render (writable : column.Writable)
    (fits : ∀ comment, column.trailingComment? = some comment → column.Fits comment)
    (options : ReadOptions) (number : Int) :
    BodyEntry.read options number (column.render layout) =
      .ok (.column (column.reread options)) := by
  obtain ⟨_, shape⟩ := definition_shape layout column
  have silent := startsHere_render layout writable.nameFree.2
  have colon : (Comment.split (column.render layout)).1.contains ':' = true := by
    obtain ⟨gap, split⟩ := split_render layout writable fits
    rw [split, shape, label]
    simp
  rw [BodyEntry.read, silent, colon, read_render layout writable fits]
  rfl

end Written

/-! ## The columns a reader returns -/

/-- What the reader knows of every column it returns: it can be written with its own
comment, and its comment states its constraints and annotations. -/
structure Canonical (options : ReadOptions) (column : Column) : Prop where
  writable : column.Writable
  fits : ∀ comment, column.comment = some comment → column.Fits comment
  constraints : column.constraints =
    if options.skipConstraints then [] else Constraint.readAll (column.comment.getD [])
  annotations : column.annotations =
    if options.skipAnnotations then [] else Tag.readAll (column.comment.getD [])

/-- The reader returns columns that can be written, with what their comments state. -/
theorem canonical_of_read {options : ReadOptions} {number : Int} {source : Text} {column : Column}
    (free : Text.LineFree source) (found : read options number source = .ok column) :
    column.Canonical options := by
  obtain ⟨definition, rest, divides⟩ := Comment.exists_divides (Text.trim source)
  obtain ⟨defines, commented, constraints, annotations⟩ := (read_eq_ok_iff divides).mp found
  have lineFree : Text.LineFree (Text.trim source) := free.mono (Text.trim_subset source)
  have within : Text.trim definition ⊆ Text.trim source :=
    List.Subset.trans (Text.trim_subset definition) divides.isPrefix.subset
  obtain ⟨nameSubset, stringsSubset⟩ := defines.subset
  obtain ⟨quietIff, ends⟩ := defines.quiet
  obtain ⟨nameQuiet, typeQuiet⟩ := quietIff.mp (Comment.quiet_trim divides.quiet)
  refine ⟨⟨lineFree.mono (List.Subset.trans nameSubset within), nameQuiet, defines.valid, ?_,
    typeQuiet⟩, ?_, constraints, annotations⟩
  · intro string member
    exact lineFree.mono (List.Subset.trans (stringsSubset string member) within)
  · intro comment stated
    rw [commented, commentOf_eq_some_iff] at stated
    obtain ⟨filled, text, rfl, rfl⟩ := stated
    refine ⟨filled, Text.trimmed_trim text, ?_, ?_⟩
    · have behind : text <:+ Text.trim source :=
        ((List.suffix_cons '/' text).trans (List.suffix_cons '/' _)).trans divides.isSuffix
      exact lineFree.mono (List.Subset.trans (Text.trim_subset text) behind.subset)
    · rw [← ends, Comment.endsInLiteral_trim]
      exact divides.outside

/-- An empty comment states nothing. -/
theorem readAll_nil (options : ReadOptions) :
    (if options.skipConstraints then [] else Constraint.readAll []) = [] ∧
      (if options.skipAnnotations then [] else Tag.readAll []) = [] := by
  have noConstraints : Constraint.readAll [] = [] := by decide
  have noAnnotations : Tag.readAll [] = [] := by simp [Tag.readAll]
  simp only [noConstraints, noAnnotations, ite_self, and_self]

/-- The comment of a column that was read is written as it is. -/
theorem Canonical.trailingComment?_eq {options : ReadOptions} {column : Column}
    (canonical : column.Canonical options) : column.trailingComment? = column.comment := by
  cases commented : column.comment with
  | some comment =>
      cases comment with
      | nil => exact ((canonical.fits [] commented).nonempty rfl).elim
      | cons c comment => simp only [trailingComment?, commented]
  | none =>
      have constraints := canonical.constraints
      have annotations := canonical.annotations
      rw [commented, Option.getD_none, (readAll_nil options).1] at constraints
      rw [commented, Option.getD_none, (readAll_nil options).2] at annotations
      simp only [trailingComment?, commented, statedComment?, constraints, annotations,
        List.mergeSort_nil, List.map_nil, List.append_nil]

theorem Canonical.reread_eq {options : ReadOptions} {column : Column}
    (canonical : column.Canonical options) : column.reread options = column := by
  obtain ⟨name, type, nullable, constraints, annotations, comment⟩ := column
  have same := canonical.trailingComment?_eq
  have stated := canonical.constraints
  have tagged := canonical.annotations
  simp only [reread, same]
  simp only at stated tagged
  rw [← stated, ← tagged]

/-- The column that was read from the line of a column is written with the same line. -/
theorem render_reread {column : Column} (writable : column.Writable)
    (fits : ∀ comment, column.trailingComment? = some comment → column.Fits comment)
    (options : ReadOptions) (layout : Layout) :
    (column.reread options).render layout = column.render layout := by
  have canonical := canonical_of_read (lineFree_render layout (writable.joinable fits))
    (read_render layout writable fits options 0)
  apply render_congr
  · rfl
  · rfl
  · exact canonical.trailingComment?_eq

/-! ## Columns without a comment -/

/-- Behind a name with an odd number of apostrophes no comment starts in a type when no string
of it has two slashes in it. -/
theorem quiet_type_iff {type : ColumnType} (valid : type.Valid) {name : Text} :
    type.Quiet (Comment.endsInLiteral false name) ↔
      (¬Even (name.count apostrophe) → ∀ string ∈ type.strings, ¬"//".toList <:+: string) := by
  rw [ColumnType.Quiet, ← Bool.not_eq_false, Comment.endsInLiteral_eq_self_iff]
  refine imp_congr_right fun _ => forall₂_congr fun string member => ?_
  exact Comment.quiet_iff_of_clear (valid.clear string member)

/-- A column that has nothing but its definition. -/
structure Bare (column : Column) : Prop where
  comment : column.comment = none
  constraints : column.constraints = []
  annotations : column.annotations = []

section

variable {column : Column} (layout : Layout)

theorem Bare.render_eq (bare : column.Bare) : column.render layout = column.definition layout := by
  apply render_of_silent
  simp [trailingComment?, statedComment?, bare.comment, bare.constraints, bare.annotations]

/-- The definition of a column is read back when no comment starts in it.  A comment would go on
up to the semicolon, so the column that was read would have it. -/
theorem Bare.reads_iff_quiet (bare : column.Bare) (free : '\n' ∉ column.name)
    (valid : column.type.Valid) (options : ReadOptions) (number : Int) :
    read options number (column.render layout) = .ok column ↔
      Comment.Quiet false (column.definition layout) := by
  have trimmed := trimmed_definition layout free
  rw [bare.render_eq]
  constructor
  · intro found
    obtain ⟨definition, rest, divides⟩ :=
      Comment.exists_divides (Text.trim (column.definition layout))
    obtain ⟨_, commented, _⟩ := (read_eq_ok_iff divides).mp found
    rw [trimmed.trim_eq] at divides
    cases rest with
    | none => exact (Comment.divides_none_iff.mp divides).2
    | some rest =>
        have blank := blank_of_commentOf (commented.symm.trans bare.comment)
        obtain ⟨front, whole⟩ := divides.isSuffix
        obtain ⟨_, shape⟩ := definition_shape layout column
        have last := congrArg List.getLast? (whole.trans shape)
        rw [List.getLast?_append_of_ne_nil _ (by simp), List.getLast?_concat] at last
        have member : ';' ∈ rest := by simpa using List.mem_of_getLast? last
        exact (Text.not_mem_of_blank (by decide) blank member).elim
  · intro quiet
    have divides : Comment.Divides (Text.trim (column.definition layout))
        (column.definition layout) none :=
      Comment.divides_none_iff.mpr ⟨trimmed.trim_eq.symm, trimmed.trim_eq.symm ▸ quiet⟩
    obtain ⟨noConstraints, noAnnotations⟩ := readAll_nil options
    rw [read_eq_ok_iff divides, trimmed.trim_eq, bare.comment, bare.constraints, bare.annotations]
    exact ⟨defines_definition layout free valid, rfl, noConstraints.symm, noAnnotations.symm⟩

end

/-- A column without a comment is read back from its line exactly when no comment can start in
its name and, behind a name with an odd number of apostrophes, no string of its type has two
slashes in it. -/
theorem survives_rendering_iff {name : Text} {type : ColumnType} (free : '\n' ∉ name)
    (valid : type.Valid) (nullable : Bool) (layout : Layout) (options : ReadOptions) (number : Int) :
    read options number (render layout { name, type, nullable }) = .ok { name, type, nullable } ↔
      (∀ position, ¬Comment.OpensAt name position) ∧
        (¬Even (name.count apostrophe) → ∀ string ∈ type.strings, ¬"//".toList <:+: string) := by
  have bare : Bare { name, type, nullable } := ⟨rfl, rfl, rfl⟩
  have defines : Defines (definition layout { name, type, nullable }) name nullable type :=
    defines_definition layout free valid
  rw [bare.reads_iff_quiet layout free valid, defines.quiet.1, Comment.quiet_iff,
    quiet_type_iff valid]

/-- A column whose name has slashes, a colon and other marks behind an apostrophe. -/
def marked : Column where
  name := "it's // `x`: ;?".toList
  type := .union [.string "a|b; c".toList, .number (-7)]
  nullable := true

theorem survives_rendering_iff_marked :
    '\n' ∉ marked.name ∧ marked.type.Valid ∧ read {} 1 (marked.render {}) = .ok marked := by
  have free : '\n' ∉ marked.name := by decide
  have valid : marked.type.Valid := by
    refine ⟨by decide, List.forall_mem_cons.mpr ⟨?_, List.forall_mem_singleton.mpr ?_⟩⟩
    · exact (by decide : apostrophe ∉ "a|b; c".toList)
    · exact (by decide : (Nat.toDigits 10 7).length ≤ Integer.digitLimit)
  refine ⟨free, valid, (survives_rendering_iff free valid true {} {} 1).mpr ⟨?_, fun _ => ?_⟩⟩
  · exact Comment.quiet_iff.mp (by decide)
  · exact List.forall_mem_singleton.mpr ((Comment.quiet_iff_of_clear (by decide)).mp (by decide))

/-- The slashes in a quoted name are taken for the start of a comment. -/
theorem slashes_in_name_refused :
    let column : Column := { name := "a//b".toList, type := .simple "int".toList none false }
    Text.LineFree column.name ∧ column.type.Valid ∧
      read {} 1 (column.render {}) = .error (.malformed {
        line := 1
        defect := .invalidColumnName "`a//b`: int;".toList
        source := "`a//b`: int;".toList }) := by
  have valid : ColumnType.Valid (.simple "int".toList none false) :=
    ⟨⟨by decide, List.all_eq_true.mp (by decide)⟩, by simp, fun _ _ => ⟨'i', by decide, by decide⟩⟩
  have written : definition {} { name := "a//b".toList, type := .simple "int".toList none false } =
      "`a//b`: int;".toList := by decide
  refine ⟨by decide, valid, ?_⟩
  rw [Bare.render_eq {} ⟨rfl, rfl, rfl⟩, written]
  rfl

end SchemaNotation.Column
