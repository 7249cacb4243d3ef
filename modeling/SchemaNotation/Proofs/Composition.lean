import SchemaNotation.Proofs.Failure
import SchemaNotation.Proofs.Line

/-!
# Documents behind each other

A blank line between two documents separates them completely.  Reading what stands
behind it goes as it would go alone: the tables and comment lines that have been read
before stay in front, and only the numbers of the lines move on.
-/

namespace SchemaNotation

/-! ## Lines of joined texts -/

theorem Text.lines_ne_nil (text : Text) : lines text ≠ [] := by
  fun_cases lines text with
  | case1 | case2 | case3 => simp
  | case4 c text =>
      cases lines text <;> simp [pushFront]

/-- A line feed between two texts ends the last line of the first, unless a carriage
return before it does. -/
theorem Text.lines_append_feed_append {first : Text} (noReturn : first.getLast? ≠ some '\r')
    (second : Text) : lines (first ++ '\n' :: second) = lines first ++ lines second := by
  have behind : ∀ {c : Char} {text : Text}, (c :: text).getLast? ≠ some '\r' →
      text.getLast? ≠ some '\r' := by
    intro c text noReturn last
    rw [List.getLast?_cons, last] at noReturn
    exact noReturn rfl
  fun_induction lines first with
  | case1 => exact lines_feed second
  | case2 text ih =>
      rw [List.cons_append, List.cons_append, lines.eq_2, ih (behind (behind noReturn))]
      rfl
  | case3 c text other breaks ih =>
      rw [List.cons_append, lines.eq_3, if_pos breaks, ih (behind noReturn)]
      · rfl
      · intro tail isReturn shape
        cases text with
        | nil => exact noReturn (congrArg some isReturn)
        | cons d text =>
            obtain ⟨rfl, _⟩ := List.cons.inj shape
            exact other text isReturn rfl
  | case4 c text other continues ih =>
      rw [not_or] at continues
      rw [List.cons_append, lines_cons continues.1 continues.2, ih (behind noReturn)]
      obtain ⟨line, others, shape⟩ := List.exists_cons_of_ne_nil (lines_ne_nil text)
      rw [shape]
      rfl

/-- Two line feeds put an empty line between two texts. -/
theorem Text.lines_append_blank {first : Text} (noReturn : first.getLast? ≠ some '\r')
    (second : Text) :
    lines (first ++ "\n\n".toList ++ second) = lines first ++ [] :: lines second := by
  have regroup : first ++ "\n\n".toList ++ second = first ++ '\n' :: ('\n' :: second) := by simp
  rw [regroup, lines_append_feed_append noReturn, lines_feed]

/-! ## Moved results -/

/-- The error for a line that stands further down. -/
def LineError.later (count : Int) (error : LineError) : LineError :=
  { error with line := error.line + count }

/-- The error of a document that stands further down. -/
def ReadError.later (count : Int) : ReadError → ReadError
  | .malformed error => .malformed (error.later count)
  | error => error

/-- A table that is opened further down. -/
def OpenTable.later (count : Int) (table : OpenTable) : OpenTable :=
  { table with line := table.line + count }

/-- A place further down. -/
def Place.later (count : Int) : Place → Place
  | .between pending => .between pending
  | .inside table => .inside (table.later count)

/-- What has been read further down, behind tables and comment lines of the schema. -/
def Progress.behind (schema : Schema) (count : Int) (progress : Progress) : Progress where
  tables := schema.tables ++ progress.tables
  metadata := schema.metadata ++ progress.metadata
  place := progress.place.later count

/-- Two schemas, one behind the other. -/
def Schema.append (first second : Schema) : Schema where
  tables := first.tables ++ second.tables
  metadata := first.metadata ++ second.metadata
  annotations := first.annotations ++ second.annotations

/-- The outcome of a step that is taken further down. -/
def moved {α β : Type} (count : Int) (place : α → β) (outcome : Except ReadError α) :
    Except ReadError β :=
  (outcome.mapError (ReadError.later count)).map place

section Moved

variable {α β γ δ : Type} {count : Int}

@[simp] theorem moved_ok (place : α → β) (value : α) :
    moved count place (.ok value) = .ok (place value) :=
  rfl

@[simp] theorem moved_malformed (place : α → β) (error : LineError) :
    moved count place (.error (.malformed error)) = .error (.malformed (error.later count)) :=
  rfl

/-- A step that follows another is moved with it. -/
theorem moved_bind {place : α → β} {place' : γ → δ} {step : Except ReadError α}
    {next : α → Except ReadError γ} {next' : β → Except ReadError δ}
    (follows : ∀ value, next' (place value) = moved count place' (next value)) :
    (moved count place step >>= next') = moved count place' (step >>= next) := by
  cases step with
  | error fault => rfl
  | ok value => exact follows value

theorem moved_mapM {step step' : α → Except ReadError β} {values : List α}
    (each : ∀ value, step' value = moved count id (step value)) :
    values.mapM step' = moved count id (values.mapM step) := by
  induction values with
  | nil => rfl
  | cons value values ih =>
      rw [List.mapM_cons, List.mapM_cons, each, ih]
      apply moved_bind
      intro result
      apply moved_bind
      intro results
      rfl

end Moved

/-! ## Reading further down -/

variable {options : ReadOptions} {count number : Int}

theorem Column.read_later (source : Text) :
    Column.read options (number + count) source =
      moved count id (Column.read options number source) := by
  dsimp only [read]
  cases (readDefinition (Text.trim source) (parts (Text.trim source)).1) with
  | error defect => rfl
  | ok definition =>
      obtain ⟨name, nullable, typeText⟩ := definition
      dsimp only [Except.mapError, bind, Except.bind]
      cases ColumnType.read typeText with
      | error fault => rfl
      | ok type? => cases type? <;> rfl

/-- A step that finds no malformed line is the same further down. -/
theorem moved_of_ne_malformed {α : Type} (count : Int) {step : Except ReadError α}
    (never : ∀ error, step ≠ .error (.malformed error)) : moved count id step = step := by
  cases step with
  | ok value => rfl
  | error fault =>
      cases fault with
      | malformed error => exact (never error rfl).elim
      | tooLong fault => rfl
      | unknownKind fault => rfl

theorem BodyEntry.read_later (line : Text) :
    read options (number + count) line = moved count id (read options number line) := by
  have constraint := moved_of_ne_malformed count fun error =>
    readConstraint_ne_malformed options (Comment.content line)
  unfold read
  split
  · dsimp only
    conv_lhs => rw [← constraint]
    apply moved_bind
    intro stated?
    cases stated? <;> rfl
  · split
    · rw [Column.read_later]
      apply moved_bind
      intro definition
      rfl
    · rfl

theorem OpenTable.close_later (table : OpenTable) :
    (table.later count).close options = moved count id (table.close options) :=
  (moved_of_ne_malformed count fun _ => close_ne_malformed).symm

namespace Progress

variable {schema : Schema}

theorem finishTable_later (progress : Progress) (table : OpenTable) :
    (progress.behind schema count).finishTable options (table.later count) =
      moved count (behind schema count) (progress.finishTable options table) := by
  rw [finishTable, OpenTable.close_later]
  apply moved_bind
  intro closed
  simp [behind, Place.later, pure, Except.pure, List.append_assoc]

theorem openTable_later (tables : List Table) (metadata pending : List Text) (line : Text) :
    openTable options (behind schema count { tables, metadata, place := .between pending }) pending
        (number + count) (Text.trimLeft line) =
      moved count (behind schema count)
        (openTable options { tables, metadata, place := .between pending } pending number
          (Text.trimLeft line)) := by
  rw [openTable_eq, openTable_eq]
  cases Interface.opening? line with
  | none => rfl
  | some opening =>
      dsimp only
      rw [moved_mapM BodyEntry.read_later]
      apply moved_bind
      intro entries
      dsimp only [id]
      split
      · exact finishTable_later _ (opened number line pending opening entries)
      · rfl

/-- A line is read further down as it is read alone. -/
theorem readLine_later (progress : Progress) (line : Text) :
    (progress.behind schema count).readLine options (number + count) line =
      moved count (behind schema count) (progress.readLine options number line) := by
  obtain ⟨tables, metadata, place⟩ := progress
  cases place with
  | between pending =>
      dsimp only [readLine, behind, Place.later]
      split
      · simp [behind, Place.later, pure, Except.pure, List.append_assoc]
      · split
        · rfl
        · split
          · exact openTable_later tables metadata pending line
          · rfl
  | inside table =>
      dsimp only [readLine, behind, Place.later]
      split
      · exact finishTable_later { tables, metadata, place := .inside table } table
      · split
        · rfl
        · dsimp only [OpenTable.add]
          rw [moved_mapM BodyEntry.read_later]
          cases [Text.trim line].mapM (BodyEntry.read options number) with
          | error fault => rfl
          | ok entries => rfl

/-- Lines are read further down as they are read alone. -/
theorem readLines_later (progress : Progress) (lines : List Text) :
    readLines options (progress.behind schema count) (number + count) lines =
      moved count (behind schema count) (readLines options progress number lines) := by
  induction lines generalizing progress number with
  | nil => rfl
  | cons line lines ih =>
      rw [readLines, readLines, readLine_later]
      apply moved_bind
      intro next
      have onward : number + count + 1 = number + 1 + count := by omega
      rw [onward]
      exact ih next

theorem finish_later (progress : Progress)
    (annotated : schema.annotations = if options.skipAnnotations then [] else
      Tag.readLines schema.metadata) :
    (progress.behind schema count).finish options =
      moved count schema.append (progress.finish options) := by
  obtain ⟨tables, metadata, place⟩ := progress
  cases place with
  | inside table => rfl
  | between pending =>
      dsimp only [finish, behind, Place.later]
      simp only [pure, Except.pure, moved_ok, Schema.append, annotated, List.append_assoc]
      split
      · rfl
      · simp [Tag.readLines]

end Progress

/-- A document behind another one and a blank line is read as it is read alone. -/
theorem Schema.read_append_eq {first : Text} {schema : Schema}
    (noReturn : first.getLast? ≠ some '\r') (found : Schema.read options first = .ok schema)
    (second : Text) :
    Schema.read options (first ++ "\n\n".toList ++ second) =
      moved (first.lines.length + 1) schema.append (Schema.read options second) := by
  obtain ⟨tables, metadata, pending, run, shape⟩ := Schema.exists_of_read found
  have annotated : schema.annotations = if options.skipAnnotations then [] else
      Tag.readLines schema.metadata := by
    rw [shape]
  have start : ({ tables, metadata := metadata ++ pending, place := .between [] } : Progress) =
      Progress.behind schema (first.lines.length + 1) {} := by
    simp [Progress.behind, Place.later, shape]
  have number : (1 : Int) + first.lines.length + 1 = 1 + (first.lines.length + 1) := by omega
  rw [Schema.read, Text.lines_append_blank noReturn, Progress.readLines_append run,
    Progress.readLines_cons (Progress.readLine_blank ..), start, number,
    Progress.readLines_later, Schema.read]
  apply moved_bind
  intro last
  exact Progress.finish_later last annotated

/-- Two documents with a blank line between them are read as what each of them is read
as, one behind the other.  A malformed line of the second is reported as it is alone,
under its number in the whole text. -/
theorem Schema.reads_in_turn {first : Text} {schema : Schema}
    (noReturn : first.getLast? ≠ some '\r') (found : Schema.read options first = .ok schema)
    (second : Text) :
    (∀ other, Schema.read options second = .ok other →
      Schema.read options (first ++ "\n\n".toList ++ second) = .ok {
        tables := schema.tables ++ other.tables
        metadata := schema.metadata ++ other.metadata
        annotations := schema.annotations ++ other.annotations }) ∧
    ∀ error, Schema.read options second = .error (.malformed error) →
      Schema.read options (first ++ "\n\n".toList ++ second) = .error (.malformed {
        line := error.line + first.lines.length + 1
        defect := error.defect
        source := error.source }) := by
  have whole := Schema.read_append_eq noReturn found second
  constructor
  · intro other read
    rw [whole, read]
    rfl
  · intro error failed
    rw [whole, failed, moved_malformed, LineError.later, ← Int.add_assoc]

section Lead

/-- A document that ends with a comment line. -/
def leadText : Text :=
  "// @owner: sales\n\n// kept\ninterface A \x7b\r\n  a: int;\n\x7d\n// behind".toList

/-- What the document is read as. -/
def lead : Schema where
  tables := [{
    name := "A".toList
    columns := [{ name := "a".toList, type := .simple "int".toList none false }]
    metadata := ["kept".toList] }]
  metadata := ["@owner: sales".toList, "behind".toList]
  annotations := [⟨"owner".toList, "sales".toList⟩]

theorem read_leadText : Schema.read {} leadText = .ok lead := by
  -- Decoding the literal takes the kernel longer than reading its characters.
  have chars : leadText = _ := String.toList_ofList
  rw [chars]
  decide +kernel

end Lead

theorem Schema.reads_in_turn_lead :
    leadText.getLast? ≠ some '\r' ∧
    Schema.read {} (leadText ++ "\n\n".toList ++ leadText) = .ok {
      tables := lead.tables ++ lead.tables
      metadata := lead.metadata ++ lead.metadata
      annotations := lead.annotations ++ lead.annotations } ∧
    Schema.read {} (leadText ++ "\n\n".toList ++ brokenText) = .error (.malformed {
      line := brokenError.line + leadText.lines.length + 1
      defect := brokenError.defect
      source := brokenError.source }) := by
  have noReturn : leadText.getLast? ≠ some '\r' := by decide +kernel
  have twice := Schema.reads_in_turn noReturn read_leadText leadText
  have failing := Schema.reads_in_turn noReturn read_leadText brokenText
  exact ⟨noReturn, twice.1 lead read_leadText, failing.2 brokenError read_brokenText⟩

end SchemaNotation
