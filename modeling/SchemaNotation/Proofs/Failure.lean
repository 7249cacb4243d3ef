import SchemaNotation.Proofs.Render
import SchemaNotation.Proofs.Step

/-!
# Where reading fails

A malformed line is reported under its own number, by whatever reader finds it, and
nothing behind it has been looked at.  Only a table that is never closed is reported
under the number of the line that opens it.
-/

namespace SchemaNotation

/-- An error that the line of the given number raises by itself. -/
structure LineError.RaisedAt (number : Int) (error : LineError) : Prop where
  line : error.line = number
  code : error.defect.code ≠ .unclosedInterface

/-! ## Errors of one line -/

theorem Column.code_of_readDefinition {line definition : Text} {defect : Defect}
    (failed : readDefinition line definition = .error defect) :
    defect.code = .invalidColumn := by
  unfold readDefinition at failed
  split at failed
  · cases failed
    rfl
  · dsimp only at failed
    split at failed
    · cases failed
    · cases failed
      rfl

variable {options : ReadOptions} {number : Int} {line : Text} {error : LineError}

theorem Column.raisedAt_of_read
    (failed : Column.read options number line = .error (.malformed error)) :
    error.RaisedAt number := by
  dsimp only [read] at failed
  rcases error_of_bind_eq_error failed with undefined | ⟨⟨name, nullable, typeText⟩, _, failed⟩
  · obtain ⟨defect, cause, raised⟩ := exists_of_mapError_eq_error undefined
    cases raised
    refine ⟨rfl, ?_⟩
    rw [Column.code_of_readDefinition cause]
    decide
  · rcases error_of_bind_eq_error failed with tooLong | ⟨type?, _, failed⟩
    · obtain ⟨fault, _, raised⟩ := exists_of_mapError_eq_error tooLong
      cases raised
    · cases type? with
      | none =>
          cases failed
          exact ⟨rfl, by simp [Defect.code]⟩
      | some type => cases failed

theorem BodyEntry.readConstraint_ne_malformed (options : ReadOptions) (text : Text) :
    readConstraint options text ≠ .error (.malformed error) := by
  intro failed
  unfold readConstraint at failed
  split at failed
  · cases failed
  · obtain ⟨fault, _, raised⟩ := exists_of_mapError_eq_error failed
    cases raised

theorem BodyEntry.raisedAt_of_read (failed : read options number line = .error (.malformed error)) :
    error.RaisedAt number := by
  unfold read at failed
  split at failed
  · rcases error_of_bind_eq_error failed with stated | ⟨stated?, _, failed⟩
    · exact (readConstraint_ne_malformed _ _ stated).elim
    · cases stated? <;> cases failed
  · split at failed
    · rcases error_of_bind_eq_error failed with column | ⟨definition, _, failed⟩
      · exact Column.raisedAt_of_read column
      · cases failed
    · cases failed
      exact ⟨rfl, by simp [Defect.code]⟩

namespace OpenTable

/-- Closing a table finds no malformed line. -/
theorem close_ne_malformed {table : OpenTable} :
    table.close options ≠ .error (.malformed error) := by
  intro failed
  obtain ⟨text, _, fails⟩ := exists_of_close_eq_error failed
  exact BodyEntry.readConstraint_ne_malformed _ _ fails

end OpenTable

namespace Progress

variable {progress : Progress}

theorem finishTable_ne_malformed {table : OpenTable} :
    progress.finishTable options table ≠ .error (.malformed error) := by
  intro failed
  obtain ⟨text, _, fails⟩ := exists_of_finishTable_eq_error failed
  exact BodyEntry.readConstraint_ne_malformed _ _ fails

/-- A line that stops the reader is reported under its own number. -/
theorem raisedAt_of_stop {place : Place}
    (stop : Stop options number line place (.malformed error)) :
    error.RaisedAt number := by
  cases stop with
  | content => exact ⟨rfl, by simp [Defect.code]⟩
  | header => exact ⟨rfl, by simp [Defect.code]⟩
  | segment _ _ failed => exact BodyEntry.raisedAt_of_read failed
  | entry failed => exact BodyEntry.raisedAt_of_read failed
  | comment _ failed => exact (BodyEntry.readConstraint_ne_malformed _ _ failed).elim

/-! ## Errors of a document -/

/-- A run that fails has stopped at one line, and the lines behind it do not matter. -/
theorem exists_of_readLines_error {lines : List Text}
    (failed : readLines options progress number lines = .error (.malformed error)) :
    ∃ before line after, lines = before ++ line :: after ∧
      error.RaisedAt (number + before.length) ∧
      ∀ others, readLines options progress number (before ++ line :: others) =
        .error (.malformed error) := by
  induction lines generalizing progress number with
  | nil => cases failed
  | cons line lines ih =>
      rcases error_of_bind_eq_error failed with here | ⟨next, step, later⟩
      · refine ⟨[], line, lines, rfl, ?_, ?_⟩
        · rw [List.length_nil, Int.natCast_zero, Int.add_zero]
          exact raisedAt_of_stop (stop_of_readLine here)
        · intro others
          rw [List.nil_append, readLines, here]
          rfl
      · obtain ⟨before, bad, after, rfl, raised, same⟩ := ih later
        refine ⟨line :: before, bad, after, rfl, ?_, ?_⟩
        · rw [List.length_cons, Int.natCast_succ, Int.add_comm (before.length : Int) 1,
            ← Int.add_assoc]
          exact raised
        · intro others
          rw [List.cons_append, readLines_cons step]
          exact same others

/-- A table that is still open was opened by one of the lines read so far, and none of
the lines behind that one closes it. -/
def OpenSince (seen : List Text) : Place → Prop
  | .between _ => True
  | .inside table => ∃ before header inner, seen = before ++ header :: inner ∧
      table.line = before.length + 1 ∧
      (∃ opening, Interface.opening? header = some opening ∧ opening.name = table.name) ∧
      ∀ line ∈ inner, Text.trim line ≠ ['\x7d']

/-- A table stays open behind a line that does not close it. -/
theorem OpenSince.append {seen : List Text} {table : OpenTable}
    (known : OpenSince seen (.inside table))
    (stays : Text.trim line ≠ ['\x7d']) (entries : List BodyEntry) :
    OpenSince (seen ++ [line]) (.inside { table with entries }) := by
  obtain ⟨before, header, inner, rfl, isLine, opens, others⟩ := known
  refine ⟨before, header, inner ++ [line], by simp, isLine, opens, ?_⟩
  exact List.forall_mem_append.mpr ⟨others, List.forall_mem_singleton.mpr stays⟩

theorem OpenSince.step {next : Progress} {seen : List Text} (known : OpenSince seen progress.place)
    (step : Step options (seen.length + 1) line progress next) :
    OpenSince (seen ++ [line]) next.place := by
  cases step with
  | blank | comment | oneLine | closes => trivial
  | opens opens => exact ⟨seen, line, [], rfl, rfl, ⟨_, opens, rfl⟩, List.forall_mem_nil _⟩
  | skips empty => exact known.append (by simp [empty]) _
  | entry stays => exact known.append stays _

theorem openSince_readLines (seen : List Text) {final : Progress} {lines : List Text}
    (run : readLines options progress (seen.length + 1) lines = .ok final)
    (known : OpenSince seen progress.place) : OpenSince (seen ++ lines) final.place := by
  induction lines generalizing progress seen with
  | nil =>
      cases run
      rw [List.append_nil]
      exact known
  | cons line lines ih =>
      obtain ⟨next, step, run⟩ := exists_of_bind_eq_ok run
      have after : ((seen ++ [line]).length : Int) = seen.length + 1 := by simp
      rw [← after] at run
      have whole := ih _ run (known.step (step_of_readLine step))
      rwa [List.append_assoc, List.singleton_append] at whole

end Progress

/-- What an error says about the text that was read.  It names a line of the text.  A
malformed line is reported the same whatever stands behind it, and a table that is
reported as open is opened by the line and closed by none behind it. -/
structure LineError.Explains (options : ReadOptions) (text : Text) (error : LineError) : Prop where
  first : 1 ≤ error.line
  last : error.line ≤ text.lines.length
  settled : error.defect.code ≠ .unclosedInterface → ∀ other : Text,
    other.lines.take error.line.toNat = text.lines.take error.line.toNat →
      Schema.read options other = .error (.malformed error)
  unclosed : error.defect.code = .unclosedInterface → ∃ header,
    text.lines[error.line.toNat - 1]? = some header ∧
    (Interface.readHeader? (Text.trimLeft header)).isSome ∧
    ∀ later ∈ text.lines.drop error.line.toNat, Text.trim later ≠ ['\x7d']

/-- A run that stops at a line explains its error by the lines up to that one. -/
theorem Schema.explains_malformed {text : Text}
    (stopped : Progress.readLines options {} 1 text.lines = .error (.malformed error)) :
    error.Explains options text := by
  obtain ⟨before, bad, after, shape, raised, same⟩ := Progress.exists_of_readLines_error stopped
  have place : error.line.toNat = before.length + 1 := by
    rw [raised.line]
    omega
  have taken : text.lines.take error.line.toNat = before ++ [bad] := by
    rw [place, shape, List.take_length_add_append]
    rfl
  constructor
  · rw [raised.line]
    omega
  · rw [raised.line, shape, List.length_append, List.length_cons]
    omega
  · intro _ other agrees
    have split := List.take_append_drop error.line.toNat other.lines
    rw [agrees, taken, List.append_assoc, List.singleton_append] at split
    rw [Schema.read, ← split, same]
    rfl
  · intro unclosed
    exact (raised.code unclosed).elim

/-- A run that ends inside a table explains its error by the line that opened the table. -/
theorem Schema.explains_unclosed {text : Text} {tables : List Table} {metadata : List Text}
    {table : OpenTable}
    (run : Progress.readLines options {} 1 text.lines =
      .ok { tables, metadata, place := .inside table }) :
    LineError.Explains options text {
      line := table.line, defect := .unclosedInterface table.name, source := table.header } := by
  obtain ⟨before, header, inner, shape, isLine, ⟨opening, opens, _⟩, stays⟩ :=
    Progress.openSince_readLines [] run trivial
  rw [List.nil_append] at shape
  have place : table.line.toNat = before.length + 1 := by
    rw [isLine]
    omega
  constructor
  · dsimp only
    omega
  · dsimp only
    rw [isLine, shape, List.length_append, List.length_cons]
    omega
  · intro other
    exact (other rfl).elim
  · intro _
    refine ⟨header, ?_, ?_, ?_⟩
    · dsimp only
      rw [place, shape]
      simp
    · rw [Interface.opening?, Option.map_eq_some_iff] at opens
      obtain ⟨found, read, _⟩ := opens
      rw [read]
      rfl
    · dsimp only
      rw [place, shape, List.drop_length_add_append]
      exact stays

/-- Every error in the lines of a document is explained by the lines up to the one that
it names, or by a table that stays open from there on. -/
theorem Schema.explains_error {text : Text}
    (failed : Schema.read options text = .error (.malformed error)) :
    error.Explains options text := by
  rcases Schema.stopped_or_open_of_read failed with stopped | ⟨_, _, table, run, fault⟩
  · exact Schema.explains_malformed stopped
  · cases fault
    exact Schema.explains_unclosed run

section Broken

/-- A document whose second table has a line that is no entry. -/
def brokenText : Text :=
  "interface A \x7b a: int \x7d\n\ninterface B \x7b\n  b: int;\n  b again\n\x7d\n".toList

/-- The error that is reported for it. -/
def brokenError : LineError where
  line := 5
  defect := .unexpectedBodyContent "b again".toList
  source := "b again".toList

/-- A document whose table is never closed. -/
def openText : Text :=
  "// kept\n  interface A \x7b a: int; // \x7d;\n  b: int;\n  // \x7d\n".toList

/-- The error that is reported for it. -/
def openError : LineError where
  line := 2
  defect := .unclosedInterface "A".toList
  source := "interface A \x7b a: int; // \x7d;".toList

theorem read_brokenText : Schema.read {} brokenText = .error (.malformed brokenError) := by
  decide +kernel

theorem read_openText : Schema.read {} openText = .error (.malformed openError) := by
  decide +kernel

end Broken

theorem Schema.explains_error_broken :
    (Schema.read {} brokenText = .error (.malformed brokenError) ∧
      brokenError.Explains {} brokenText) ∧
    Schema.read {} openText = .error (.malformed openError) ∧ openError.Explains {} openText :=
  ⟨⟨read_brokenText, Schema.explains_error read_brokenText⟩, read_openText,
    Schema.explains_error read_openText⟩

end SchemaNotation
