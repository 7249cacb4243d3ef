import SchemaNotation.Proofs.Composition
import SchemaNotation.Proofs.Segment

/-!
# One line or many

A table can be written on a single line, and its body is then cut into the lines that it
stands for.  Written out on lines of their own, these are read in the same way, up to the
numbers under which malformed ones are reported.
-/

namespace SchemaNotation

/-! ## Errors under one number -/

/-- The error under the given number. -/
def LineError.atLine (number : Int) (error : LineError) : LineError :=
  { error with line := number }

/-- The error of a document under the given number, if it names a line. -/
def ReadError.atLine (number : Int) : ReadError → ReadError
  | .malformed error => .malformed (error.atLine number)
  | fault => fault

variable {options : ReadOptions} {number : Int}

/-- Errors that have the number already keep it. -/
theorem mapError_atLine {α : Type} {step : Except ReadError α}
    (own : ∀ error, step = .error (.malformed error) → error.line = number) :
    step.mapError (ReadError.atLine number) = step := by
  cases step with
  | ok value => rfl
  | error fault =>
      cases fault with
      | malformed error =>
          rw [← own error rfl]
          rfl
      | tooLong fault => rfl
      | unknownKind fault => rfl

/-- Entries are read alike under all numbers, up to the number of the error. -/
theorem BodyEntry.mapError_read (start : Int) (line : Text) :
    (read options start line).mapError (ReadError.atLine number) = read options number line := by
  have later : read options number line = moved (number - start) id (read options start line) := by
    have onward : start + (number - start) = number := by omega
    rw [← read_later, onward]
  rw [later]
  cases outcome : read options start line with
  | ok entry => rfl
  | error fault =>
      cases fault with
      | malformed error =>
          have own := (raisedAt_of_read outcome).line
          have onward : error.line + (number - start) = number := by omega
          rw [moved_malformed, LineError.later, onward]
          rfl
      | tooLong fault => rfl
      | unknownKind fault => rfl

/-! ## A table on one line and on many -/

/-- A table with the given body on a single line. -/
def Table.oneLine (name body : Text) : Text :=
  Progress.header name ++ (body ++ ['\x7d'])

/-- The lines of a table with the given body, each segment of the body on its own. -/
def Table.lines (name body : Text) : List Text :=
  Progress.header name :: (Body.segments body ++ [['\x7d']])

theorem Table.oneLine_eq (name body : Text) :
    oneLine name body = Interface.keyword ++
      ' ' :: (Identifier.render name ++ ' ' :: '\x7b' :: (body ++ ['\x7d'])) :=
  Progress.header_append name _

theorem Table.trimLeft_oneLine (name body : Text) :
    Text.trimLeft (oneLine name body) = oneLine name body := by
  rw [oneLine_eq]
  exact Text.trimLeft_of_stops (Text.stops_cons.mpr (by decide))

theorem Interface.opening?_oneLine {name : Text} (free : '\n' ∉ name) (body : Text) :
    opening? (Table.oneLine name body) =
      some { name, segments := Body.segments body, closes := true } := by
  rw [opening?, Table.trimLeft_oneLine, Table.oneLine, Progress.readHeader?_header free,
    Option.map_some]
  have solid := Text.trim_append_solid (c := '\x7d') (by decide) body
  simp only [solid, Text.before?_append, Text.trim_trimLeft, Body.segments_trim]

namespace Progress

/-- A table on a single line is read from the segments of its body. -/
theorem readLine_oneLine {name : Text} (free : '\n' ∉ name) (body : Text) (tables : List Table)
    (metadata pending : List Text) (number : Int) :
    readLine options { tables, metadata, place := .between pending } number
        (Table.oneLine name body) =
      (Body.segments body).mapM (BodyEntry.read options number) >>= fun entries =>
        finishTable options { tables, metadata } {
          name, line := number, header := Table.oneLine name body, metadata := pending, entries } := by
  have opens := openTable_eq options { tables, metadata, place := .between pending } pending number
    (Table.oneLine name body)
  rw [Interface.opening?_oneLine free, Table.trimLeft_oneLine] at opens
  conv_lhs => rw [Table.oneLine_eq]
  rw [readLine_keyword, ← Table.oneLine_eq, opens]
  simp only [opened, Table.trimLeft_oneLine, if_true]
  rfl

/-- The lines of a table up to the one that closes it are read as its entries. -/
theorem readLines_inside {lines : List Text}
    (inner : ∀ line ∈ lines, (line ≠ [] ∧ Text.Trimmed line) ∧ line ≠ ['\x7d']) (tables : List Table)
    (metadata : List Text) (table : OpenTable) (start number : Int) :
    (readLines options { tables, metadata, place := .inside table } start
        (lines ++ [['\x7d']])).mapError (ReadError.atLine number) =
      lines.mapM (BodyEntry.read options number) >>= fun entries =>
        finishTable options { tables, metadata } {
          table with entries := table.entries ++ entries } := by
  induction lines generalizing table start with
  | nil =>
      have closes : readLines options { tables, metadata, place := .inside table } start
          ([] ++ [['\x7d']]) = finishTable options { tables, metadata } table := by
        rw [List.nil_append, readLines, readLine_brace]
        cases finishTable options { tables, metadata } table <;> rfl
      rw [closes, mapError_atLine fun error failed => (finishTable_ne_malformed failed).elim,
        List.mapM_nil]
      simp [pure, Except.pure, bind, Except.bind]
  | cons line lines ih =>
      obtain ⟨⟨filled, trimmed⟩, stays⟩ := inner line (by simp)
      rw [← trimmed.trim_eq] at filled stays
      rw [List.cons_append, readLines, readLine_entry filled stays, mapError_bind, mapError_map,
        trimmed.trim_eq, BodyEntry.mapError_read, List.mapM_cons]
      cases BodyEntry.read options number line with
      | error fault => rfl
      | ok entry =>
          have others := ih (fun other member => inner other (List.mem_cons_of_mem line member))
            { table with entries := table.entries ++ [entry] } (start + 1)
          refine others.trans ?_
          cases lines.mapM (BodyEntry.read options number) with
          | error fault => rfl
          | ok entries => simp [pure, Except.pure, bind, Except.bind]

/-- Written out on several lines, a table is read as it is on one line, up to the numbers of
the errors. -/
theorem readLines_lines {name body : Text} (free : '\n' ∉ name)
    (inner : ['\x7d'] ∉ Body.segments body) (tables : List Table) (metadata pending : List Text)
    (number : Int) :
    (readLines options { tables, metadata, place := .between pending } number
        (Table.lines name body)).mapError (ReadError.atLine number) =
      readLine options { tables, metadata, place := .between pending } number
        (Table.oneLine name body) := by
  have entries : ∀ line ∈ Body.segments body,
      (line ≠ [] ∧ Text.Trimmed line) ∧ line ≠ ['\x7d'] := by
    intro line member
    exact ⟨Body.trimmed_of_mem_segments member, fun brace => inner (brace ▸ member)⟩
  rw [Table.lines, readLines_cons (readLine_header free ..), readLines_inside entries,
    readLine_oneLine free]
  rfl

end Progress

/-! ## Names with line breaks -/

/-- No table is opened by a line that ends within the name of the table. -/
theorem Interface.readHeader?_eq_none {lead : Text}
    (unfinished : Identifier.Unfinished lead) :
    readHeader? (keyword ++ ' ' :: lead) = none := by
  have blanks (stops : Text.Stops isBlank lead) : Text.blanks? (' ' :: lead) = some lead := by
    rw [Text.blanks?, if_pos (by decide), Text.trimLeft_of_stops stops]
  rcases unfinished with plain | ⟨part, rfl⟩
  · have stops : Text.Stops isBlank lead := by
      intro c first
      have continues := Identifier.isContinue_of_isPlain plain c (List.mem_of_head? first)
      exact isBlank_of_isWord (isWord_of_isContinue continues)
    have noQuote := Identifier.readQuoted?_of_isPlain plain []
    have whole := Identifier.readPlain?_append plain (Text.stops_nil _)
    rw [List.append_nil] at noQuote whole
    have named : readName? lead = some (lead, []) := by
      rw [readName?, noQuote, whole]
    simp only [readHeader?, Text.after?_append, blanks stops, named, Option.bind_eq_bind,
      Option.bind_some]
    rfl
  · have stops : Text.Stops isBlank (backtick :: Identifier.double part) :=
      Text.stops_cons.mpr (by decide)
    have named : readName? (backtick :: Identifier.double part) = none := by
      rw [readName?, Identifier.readQuoted?, if_pos rfl, Identifier.closing?_double_eq_none]
      rfl
    simp only [readHeader?, Text.after?_append, blanks stops, named, Option.bind_eq_bind,
      Option.bind_some, Option.bind_none]

/-- A document that starts with a table whose name has a line break is not read beyond the
name. -/
theorem Schema.exists_error_of_broken {name : Text} (broken : ¬Text.LineFree name)
    (options : ReadOptions) :
    ∃ source, ∀ rest, Schema.read options (Progress.header name ++ rest) =
      .error (.malformed { line := 1, defect := .invalidInterface, source }) := by
  obtain ⟨lead, mark, after, written, free, breaks, unfinished⟩ :=
    Identifier.exists_lead_of_broken broken
  refine ⟨Interface.keyword ++ ' ' :: lead, ?_⟩
  intro rest
  have leadFree : Text.LineFree (Interface.keyword ++ ' ' :: lead) :=
    Text.lineFree_append.mpr ⟨by decide, Text.lineFree_cons.mpr ⟨by decide, free⟩⟩
  obtain ⟨others, cut⟩ := Text.lines_append_break leadFree breaks
    (after ++ ' ' :: '\x7b' :: rest)
  have shape : Progress.header name ++ rest =
      Interface.keyword ++ ' ' :: lead ++ mark :: (after ++ ' ' :: '\x7b' :: rest) := by
    rw [Progress.header_append, written]
    simp only [List.append_assoc, List.cons_append]
  have stops : Progress.readLine options {} 1 (Interface.keyword ++ ' ' :: lead) =
      .error (.malformed {
        line := 1, defect := .invalidInterface, source := Interface.keyword ++ ' ' :: lead }) := by
    rw [Progress.readLine_keyword, Progress.openTable, Interface.readHeader?_eq_none unfinished]
    rfl
  rw [Schema.read, shape, cut, Progress.readLines, stops]
  rfl

/-! ## Whole documents -/

/-- A table with the given body on many lines. -/
def Table.manyLines (name body : Text) : Text :=
  List.intercalate ['\n'] (Table.lines name body)

theorem Table.lines_oneLine {name body : Text} (nameFree : Text.LineFree name)
    (bodyFree : Text.LineFree body) : (oneLine name body).lines = [oneLine name body] :=
  Text.lines_of_lineFree (Text.lineFree_append.mpr
    ⟨Progress.lineFree_header nameFree, Text.lineFree_append.mpr ⟨bodyFree, by decide⟩⟩)

theorem Table.lines_manyLines {name body : Text} (nameFree : Text.LineFree name)
    (bodyFree : Text.LineFree body) : (manyLines name body).lines = lines name body := by
  have free : ∀ line ∈ Progress.header name :: Body.segments body, Text.LineFree line := by
    intro line member
    rcases List.mem_cons.mp member with rfl | member
    · exact Progress.lineFree_header nameFree
    · exact Body.lineFree_of_mem_segments bodyFree member
  rw [manyLines, lines, ← List.cons_append, Text.intercalate_append ['\n'] (by simp) (by simp),
    List.intercalate_singleton, List.singleton_append, Text.lines_intercalate (by simp) free]
  rfl

theorem Progress.place_of_finishTable {progress next : Progress} {table : OpenTable}
    (step : progress.finishTable options table = .ok next) : next.place = .between [] := by
  obtain ⟨closed, _, step⟩ := exists_of_bind_eq_ok step
  cases step
  rfl

/-- A table that is written on one line is read as it is with each segment of its body on a
line of its own.  Either both documents are read as the same schema, or both fail alike, and
a malformed line differs only in its number. -/
theorem Schema.reads_alike_on_one_line (options : ReadOptions) (name : Text) {body : Text}
    (free : Text.LineFree body) (inner : ['\x7d'] ∉ Body.segments body) :
    Schema.read options (Table.oneLine name body) =
      (Schema.read options (Table.manyLines name body)).mapError (ReadError.atLine 1) := by
  by_cases nameFree : Text.LineFree name
  · have alike : (Progress.readLines options {} 1 (Table.lines name body)).mapError
        (ReadError.atLine 1) = Progress.readLine options {} 1 (Table.oneLine name body) :=
      Progress.readLines_lines nameFree.2 inner [] [] [] 1
    rw [Schema.read, Schema.read, Table.lines_oneLine nameFree free,
      Table.lines_manyLines nameFree free, mapError_bind, alike, Progress.readLines]
    cases outcome : Progress.readLine options {} 1 (Table.oneLine name body) with
    | error fault => rfl
    | ok progress =>
        rw [Progress.readLine_oneLine nameFree.2] at outcome
        obtain ⟨entries, _, closed⟩ := exists_of_bind_eq_ok outcome
        have unopened : (progress.finish options).mapError (ReadError.atLine 1) =
            progress.finish options := by
          rw [Progress.finish, Progress.place_of_finishTable closed]
          rfl
        exact unopened.symm
  · obtain ⟨source, failed⟩ := Schema.exists_error_of_broken nameFree options
    have further : Body.segments body ++ [['\x7d']] ≠ [] := by simp
    rw [Table.oneLine, Table.manyLines, Table.lines, List.intercalate_cons_of_ne_nil further,
      List.append_assoc, failed, failed]
    rfl

section Bodies

/-- A body with semicolons, slashes and a brace in its literals, and with a semicolon and a
brace in its comment. -/
def crowdedBody : Text :=
  " mark: 'a;//' | '\x7d' ;; when?: date; // UNIQUE(mark); \x7d ".toList

/-- What a table with this body is read as. -/
def crowdedSchema : Schema where
  tables := [{
    name := "A \x7b".toList
    columns := [
      { name := "mark".toList, type := .union [.string "a;//".toList, .string ['\x7d']] },
      { name := "when".toList, type := .simple "date".toList none false, nullable := true,
        constraints := [.unique], comment := some "UNIQUE(mark); \x7d".toList }] }]

/-- A body whose second segment is no entry. -/
def spoiltBody : Text :=
  "mark: int; mark again".toList

/-- The error for that segment where it is a line of its own. -/
def spoiltError : LineError where
  line := 3
  defect := .unexpectedBodyContent "mark again".toList
  source := "mark again".toList

theorem read_crowdedBody :
    Schema.read {} (Table.manyLines "A \x7b".toList crowdedBody) = .ok crowdedSchema := by
  decide +kernel

theorem read_spoiltBody :
    Schema.read {} (Table.manyLines "A".toList spoiltBody) = .error (.malformed spoiltError) := by
  decide +kernel

end Bodies

theorem Schema.reads_alike_on_one_line_crowded :
    (Text.LineFree crowdedBody ∧ ['\x7d'] ∉ Body.segments crowdedBody ∧
      Schema.read {} (Table.oneLine "A \x7b".toList crowdedBody) = .ok crowdedSchema) ∧
    Text.LineFree spoiltBody ∧ ['\x7d'] ∉ Body.segments spoiltBody ∧
      Schema.read {} (Table.oneLine "A".toList spoiltBody) =
        .error (.malformed (spoiltError.atLine 1)) := by
  have crowdedFree : Text.LineFree crowdedBody := by decide +kernel
  have crowdedInner : ['\x7d'] ∉ Body.segments crowdedBody := by decide +kernel
  have spoiltFree : Text.LineFree spoiltBody := by decide +kernel
  have spoiltInner : ['\x7d'] ∉ Body.segments spoiltBody := by decide +kernel
  have crowded := Schema.reads_alike_on_one_line {} "A \x7b".toList crowdedFree crowdedInner
  have spoilt := Schema.reads_alike_on_one_line {} "A".toList spoiltFree spoiltInner
  rw [read_crowdedBody] at crowded
  rw [read_spoiltBody] at spoilt
  exact ⟨⟨crowdedFree, crowdedInner, crowded⟩, spoiltFree, spoiltInner, spoilt⟩

end SchemaNotation
