import SchemaNotation.Proofs.Built

/-!
# Where the parts of a column stand

The line of a column has its label behind the indent, its type at one offset and its comment at
another.  The offsets are those that the layout asks for, unless what stands in front of them is
too long; then a single space separates the parts.  Nothing of a part is ever left out.
-/

namespace SchemaNotation

theorem Text.length_padRight (width : Nat) (text : Text) :
    (padRight width text).length = max width text.length := by
  rw [padRight, List.length_append, List.length_replicate]
  omega

namespace Column

/-! ## Offsets -/

/-- The offset at which the type of a column starts in its line. -/
def typeStart (layout : Layout) (column : Column) : Nat :=
  let soonest := layout.indent + column.label.length + 1
  if layout.alignTypes then max layout.typeAlignment soonest else soonest

/-- The offset behind the definition of a column in its line. -/
def definitionEnd (layout : Layout) (column : Column) : Nat :=
  column.typeStart layout + column.type.render.length + 1

/-- The offset at which the comment of a column starts in its line. -/
def commentStart (layout : Layout) (column : Column) : Nat :=
  max layout.commentAlignment (column.definitionEnd layout + 1)

section Offsets

variable (layout : Layout) (column : Column)

theorem length_definition :
    layout.indent + (column.definition layout).length = column.definitionEnd layout := by
  rw [definition, definitionEnd, typeStart]
  simp only [List.length_append, Text.length_padRight, List.length_singleton]
  split <;> omega

theorem length_render {comment : Text} (stated : column.trailingComment? = some comment) :
    layout.indent + (column.render layout).length =
      column.commentStart layout + ("// ".toList ++ comment).length := by
  have ends := length_definition layout column
  rw [commentStart, ← ends]
  simp only [render, stated, List.length_append, Text.length_padRight]
  omega

end Offsets

/-! ## The parts of a line -/

/-- The comment that is written for a column: its own, or the one that states the column when
it has none or an empty one.  An empty comment is not written. -/
inductive Shows (column : Column) (comment : Text) : Prop where
  | own (given : column.comment = some comment) (filled : comment ≠ [])
  | stated (missing : ∀ own, column.comment = some own → own = [])
      (stated : column.statedComment? = some comment) (filled : comment ≠ [])

/-- A line with the definition of a column, and with its comment if there is one, at their
offsets.  Between them stand spaces, at least one. -/
inductive Placed (layout : Layout) (column : Column) : Option Text → Text → Prop where
  | definition {gap : Nat}
      (starts : layout.indent + column.label.length + (gap + 1) = column.typeStart layout) :
      Placed layout column none
        (List.replicate layout.indent ' ' ++ column.label ++ List.replicate (gap + 1) ' ' ++
          column.type.render ++ [';'])
  | commented {line comment : Text} {gap : Nat} (placed : Placed layout column none line)
      (starts : line.length + (gap + 1) = column.commentStart layout) :
      Placed layout column (some comment)
        (line ++ List.replicate (gap + 1) ' ' ++ "// ".toList ++ comment)

/-- The line that is written for a column. -/
def WrittenAs (layout : Layout) (column : Column) (line : Text) : Prop :=
  ∃ comment?, (∀ comment, comment? = some comment ↔ column.Shows comment) ∧
    column.Placed layout comment? line

variable {layout : Layout} {column : Column}

theorem trailingComment?_eq_some_iff {comment : Text} :
    column.trailingComment? = some comment ↔ column.Shows comment := by
  rw [trailingComment?]
  constructor
  · intro written
    split at written
    · next c own given =>
        cases written
        exact .own given (List.cons_ne_nil c own)
    · next missing =>
        refine .stated ?_ written (opens_statedComment? written).1
        intro own given
        cases own with
        | nil => rfl
        | cons c own => exact (missing c own given).elim
  · intro shown
    cases shown with
    | own given filled =>
        obtain ⟨c, rest, rfl⟩ := List.exists_cons_of_ne_nil filled
        rw [given]
    | stated missing stated filled =>
        split
        · next c own given => cases missing _ given
        · exact stated

theorem placed_definition :
    column.Placed layout none (List.replicate layout.indent ' ' ++ column.definition layout) := by
  obtain ⟨gap, shape⟩ := definition_shape layout column
  have ends := length_definition layout column
  rw [shape] at ends ⊢
  simp only [definitionEnd, List.length_append, List.length_replicate, List.length_singleton] at ends
  have starts : layout.indent + column.label.length + (gap + 1) = column.typeStart layout := by
    omega
  simpa only [List.append_assoc] using Placed.definition starts

theorem writtenAs_render :
    column.WrittenAs layout (List.replicate layout.indent ' ' ++ column.render layout) := by
  refine ⟨column.trailingComment?, fun comment => trailingComment?_eq_some_iff, ?_⟩
  have placed : column.Placed layout none _ := placed_definition
  cases written : column.trailingComment? with
  | none => rwa [render_of_silent written]
  | some comment =>
      obtain ⟨gap, shape⟩ := render_of_comment written layout
      have parts : column.render layout = column.definition layout ++
          List.replicate (gap + 1) ' ' ++ ("// ".toList ++ comment) := shape
      have ends := length_render layout column written
      rw [parts, List.length_append, List.length_append, List.length_replicate] at ends
      have starts : (List.replicate layout.indent ' ' ++ column.definition layout).length +
          (gap + 1) = column.commentStart layout := by
        rw [List.length_append, List.length_replicate]
        omega
      rw [parts]
      simpa only [List.append_assoc] using Placed.commented placed starts

end Column

namespace Table

/-- Every column of a table has a line of its own at the end of the text of the table, in front
of the closing brace.  It stands in the line as its layout asks, with all of its label, its type
and its comment. -/
theorem places_columns (layout : Layout) (table : Table) {unstated : List TableConstraint}
    (readable : table.unstatedConstraints = .ok unstated) :
    ∃ above lines,
      table.render layout = .ok (List.intercalate ['\n'] (above ++ lines ++ [['\x7d']])) ∧
      (table.writtenColumns layout).Perm table.columns ∧
      List.Forall₂ (Column.WrittenAs layout) (table.writtenColumns layout) lines := by
  have rendered : ∃ above, table.renderLines layout = .ok (above ++
      (table.writtenColumns layout).map (fun column =>
        List.replicate layout.indent ' ' ++ column.render layout) ++ [['\x7d']]) := by
    rw [renderLines, readable]
    exact ⟨_, rfl⟩
  obtain ⟨above, rendered⟩ := rendered
  refine ⟨above, (table.writtenColumns layout).map fun column =>
    List.replicate layout.indent ' ' ++ column.render layout, ?_, writtenColumns_perm layout table,
    ?_⟩
  · rw [render, rendered]
    rfl
  · rw [List.forall₂_map_right_iff, List.forall₂_same]
    exact fun column _ => Column.writtenAs_render

section Narrow

/-- A layout whose indent lies behind its type alignment. -/
def wideIndent : Layout where
  indent := 6
  typeAlignment := 4
  commentAlignment := 20
  alignTypes := true

/-- A column with a comment that fits, and one whose label is long and whose comment is empty. -/
def narrowTable : Table where
  name := "t".toList
  columns :=
    [{ name := "id".toList, type := .simple "int".toList none false, comment := some "key".toList },
     { name := "a b c d e f g".toList, type := .simple "int".toList none false, nullable := true,
       comment := some [] }]

end Narrow

theorem places_columns_narrowTable :
    narrowTable.unstatedConstraints = .ok [] ∧
      narrowTable.columns.map (Column.typeStart wideIndent) = [10, 24] ∧
      narrowTable.columns.map (Column.commentStart wideIndent) = [20, 29] ∧
      ∃ above lines,
        narrowTable.render wideIndent =
          .ok (List.intercalate ['\n'] (above ++ lines ++ [['\x7d']])) ∧
        (narrowTable.writtenColumns wideIndent).Perm narrowTable.columns ∧
        List.Forall₂ (Column.WrittenAs wideIndent) (narrowTable.writtenColumns wideIndent) lines := by
  have readable : narrowTable.unstatedConstraints = .ok [] := by decide
  exact ⟨readable, by decide, by decide, places_columns wideIndent narrowTable readable⟩

end Table

end SchemaNotation
