import SchemaNotation.Document
import SchemaNotation.Proofs.Identifier
import SchemaNotation.Proofs.Outcome

/-!
# One line at a time

What the reader of a document does with a single line, as a relation between what it
had read before the line and what it has read after it.  A second relation says what
stops it at a line.  Everything that holds of whole documents follows from the cases of
the two.
-/

namespace SchemaNotation

theorem Text.trim_eq_nil_iff {text : Text} : Text.trim text = [] ↔ Text.trimLeft text = [] := by
  constructor
  · intro empty
    obtain ⟨blanks, blank, equal⟩ := Text.trimRight_split (Text.trimLeft text)
    rw [show Text.trimRight (Text.trimLeft text) = [] from empty, List.nil_append] at equal
    cases first : Text.trimLeft text with
    | nil => rfl
    | cons c rest =>
        have isBlank := blank c (by rw [← equal, first]; simp)
        have clear := Text.stops_trimLeft text c (by rw [first]; rfl)
        rw [clear] at isBlank
        cases isBlank
  · intro empty
    rw [Text.trim, empty]
    rfl

theorem Text.trim_trimLeft (text : Text) : Text.trim (Text.trimLeft text) = Text.trim text := by
  rw [Text.trim, Text.trimLeft_of_stops (Text.stops_trimLeft text)]
  rfl

theorem Comment.content_trimLeft (line : Text) : content (Text.trimLeft line) = content line := by
  rw [content, content, Text.trim_trimLeft]

namespace Interface

/-- What the line that opens a table says: the name of the table, the lines of its body
that stand behind the brace, and whether the line closes the table as well. -/
structure Opening where
  name : Text
  segments : List Text
  closes : Bool
  deriving DecidableEq, Repr

/-- Read a line that opens a table.  It closes the table when the text behind the brace
ends with the closing one. -/
def opening? (line : Text) : Option Opening :=
  (readHeader? (Text.trimLeft line)).map fun (name, rest) =>
    match Text.before? ['\x7d'] (Text.trim rest) with
    | some body => { name, segments := Body.segments (Text.trim body), closes := true }
    | none => { name, segments := Body.segments (Text.trim rest), closes := false }

theorem parts_of_readName? {text name rest : Text} (found : readName? text = some (name, rest)) :
    name ⊆ text ∧ rest <:+ text := by
  unfold readName? at found
  split at found
  · next quoted =>
      cases found
      obtain ⟨equal, _⟩ := Identifier.eq_append_of_readQuoted? quoted
      rw [equal]
      refine ⟨?_, List.suffix_append _ _⟩
      intro c member
      simp [Identifier.quote, Identifier.subset_double name member]
  · obtain ⟨equal, _, _⟩ := Identifier.eq_append_of_readPlain? found
    rw [equal]
    exact ⟨List.subset_append_left _ _, List.suffix_append _ _⟩

theorem parts_of_readHeader? {line name rest : Text}
    (found : readHeader? line = some (name, rest)) : name ⊆ line ∧ rest <:+ line := by
  simp only [readHeader?, Option.bind_eq_bind, Option.bind_eq_some_iff] at found
  obtain ⟨behind, keyword, text, blanks, ⟨name', more⟩, named, tail, opened, result⟩ := found
  cases result
  obtain ⟨nameSubset, moreSuffix⟩ := parts_of_readName? named
  have textSuffix : text <:+ behind := by
    cases behind with
    | nil => cases blanks
    | cons c behind =>
        rw [Text.blanks?] at blanks
        split at blanks
        · cases blanks
          exact (Text.trimLeft_suffix behind).trans (List.suffix_cons c behind)
        · cases blanks
  have behindSuffix : behind <:+ line := ⟨_, (Text.eq_append_of_after? keyword).symm⟩
  have restSuffix : rest <:+ Text.trimLeft more := ⟨_, (Text.eq_append_of_after? opened).symm⟩
  have within := textSuffix.trans behindSuffix
  exact ⟨List.Subset.trans nameSubset within.subset,
    (restSuffix.trans (Text.trimLeft_suffix more)).trans (moreSuffix.trans within)⟩

/-- What a line says of the table that it opens stands in the line. -/
theorem exists_body_of_opening? {line : Text} {opening : Opening}
    (opens : opening? line = some opening) :
    opening.name ⊆ line ∧ ∃ body, body <:+: line ∧ opening.segments = Body.segments body := by
  rw [opening?, Option.map_eq_some_iff] at opens
  obtain ⟨⟨name, rest⟩, header, rfl⟩ := opens
  obtain ⟨nameSubset, restSuffix⟩ := parts_of_readHeader? header
  have trimmed := Text.trimLeft_suffix line
  have within : Text.trim rest <:+: line :=
    (Text.trim_within rest).trans (restSuffix.trans trimmed).isInfix
  dsimp only
  split
  · next body closed =>
      have lead : body <+: Text.trim rest := ⟨_, (Text.eq_append_of_before? closed).symm⟩
      exact ⟨List.Subset.trans nameSubset trimmed.subset, _,
        ((Text.trim_within body).trans lead.isInfix).trans within, rfl⟩
  · exact ⟨List.Subset.trans nameSubset trimmed.subset, _, within, rfl⟩

/-- A line that opens a table starts with the keyword, so it is neither blank nor a
comment. -/
theorem head_of_opening? {line : Text} {opening : Opening} (opens : opening? line = some opening) :
    ∃ rest, Text.trimLeft line = 'i' :: rest := by
  rw [opening?, Option.map_eq_some_iff] at opens
  obtain ⟨_, header, _⟩ := opens
  simp only [readHeader?, Option.bind_eq_bind, Option.bind_eq_some_iff] at header
  obtain ⟨behind, led, _⟩ := header
  exact ⟨_, Text.eq_append_of_after? led⟩

end Interface

/-- A table cannot be closed when one of its comment lines cannot be read. -/
theorem OpenTable.exists_of_close_eq_error {options : ReadOptions} {table : OpenTable}
    {fault : ReadError} (failed : table.close options = .error fault) :
    ∃ comment ∈ table.metadata, BodyEntry.readConstraint options comment = .error fault := by
  rcases error_of_bind_eq_error failed with unread | ⟨_, _, impossible⟩
  · exact exists_of_mapM_eq_error unread
  · cases impossible

/-- The comment lines that are still to be read for the constraints of a table. -/
def Place.comments : Place → List Text
  | .between pending => pending
  | .inside table => table.metadata

namespace Progress

/-- The table that a line opens. -/
def opened (number : Int) (line : Text) (pending : List Text) (opening : Interface.Opening)
    (entries : List BodyEntry) : OpenTable :=
  { name := opening.name, line := number, header := Text.trimLeft line, metadata := pending, entries }

/-- What the line of the given number makes of what has been read before it. -/
inductive Step (options : ReadOptions) (number : Int) (line : Text) : Progress → Progress → Prop where
  | blank {tables metadata pending} (empty : Text.trim line = []) :
      Step options number line { tables, metadata, place := .between pending }
        { tables, metadata := metadata ++ pending, place := .between [] }
  | comment {tables metadata pending} (starts : Comment.startsHere (Text.trimLeft line) = true) :
      Step options number line { tables, metadata, place := .between pending }
        { tables, metadata, place := .between (pending ++ [Comment.content line]) }
  | oneLine {tables metadata pending opening entries closed}
      (opens : Interface.opening? line = some opening) (closes : opening.closes = true)
      (read : opening.segments.mapM (BodyEntry.read options number) = .ok entries)
      (close : (opened number line pending opening entries).close options = .ok closed) :
      Step options number line { tables, metadata, place := .between pending }
        { tables := tables ++ [closed], metadata, place := .between [] }
  | opens {tables metadata pending opening entries}
      (opens : Interface.opening? line = some opening) (stays : opening.closes = false)
      (read : opening.segments.mapM (BodyEntry.read options number) = .ok entries) :
      Step options number line { tables, metadata, place := .between pending }
        { tables, metadata, place := .inside (opened number line pending opening entries) }
  | closes {tables metadata table closed} (brace : Text.trim line = ['\x7d'])
      (close : table.close options = .ok closed) :
      Step options number line { tables, metadata, place := .inside table }
        { tables := tables ++ [closed], metadata, place := .between [] }
  | skips {tables metadata table} (empty : Text.trim line = []) :
      Step options number line { tables, metadata, place := .inside table }
        { tables, metadata, place := .inside table }
  | entry {tables metadata table entry} (stays : Text.trim line ≠ ['\x7d'])
      (filled : Text.trim line ≠ [])
      (read : BodyEntry.read options number (Text.trim line) = .ok entry) :
      Step options number line { tables, metadata, place := .inside table }
        { tables, metadata, place := .inside { table with entries := table.entries ++ [entry] } }

/-- Why the line of the given number stops the reader.  An entry of a table may be read from
the line, or one of the comment lines may be read for a constraint because a table ends. -/
inductive Stop (options : ReadOptions) (number : Int) (line : Text) : Place → ReadError → Prop where
  | content {pending} :
      Stop options number line (.between pending) (.malformed {
        line := number
        defect := .unexpectedContent (Text.trim (Text.trimLeft line))
        source := Text.trimLeft line })
  | header {pending} :
      Stop options number line (.between pending) (.malformed {
        line := number, defect := .invalidInterface, source := Text.trimLeft line })
  | segment {pending opening segment fault} (opens : Interface.opening? line = some opening)
      (member : segment ∈ opening.segments)
      (failed : BodyEntry.read options number segment = .error fault) :
      Stop options number line (.between pending) fault
  | entry {table fault} (failed : BodyEntry.read options number (Text.trim line) = .error fault) :
      Stop options number line (.inside table) fault
  | comment {place comment fault} (member : comment ∈ Place.comments place)
      (failed : BodyEntry.readConstraint options comment = .error fault) :
      Stop options number line place fault

variable {options : ReadOptions} {number : Int} {line : Text}

/-! ## What a line is read as -/

/-- A line that opens a table is read for what it says, and then for the entries behind
its brace. -/
theorem openTable_eq (options : ReadOptions) (progress : Progress) (pending : List Text)
    (number : Int) (line : Text) :
    progress.openTable options pending number (Text.trimLeft line) =
      match Interface.opening? line with
      | none => .error (.malformed {
          line := number, defect := .invalidInterface, source := Text.trimLeft line })
      | some opening => do
          let entries ← opening.segments.mapM (BodyEntry.read options number)
          let table := opened number line pending opening entries
          if opening.closes then progress.finishTable options table
          else return { progress with place := .inside table } := by
  cases header : Interface.readHeader? (Text.trimLeft line) with
  | none =>
      simp only [openTable, Interface.opening?, header]
      rfl
  | some found =>
      obtain ⟨name, rest⟩ := found
      cases closed : Text.before? ['\x7d'] (Text.trim rest) with
      | none =>
          simp only [openTable, Interface.opening?, header, closed, OpenTable.add, Option.map_some]
          cases (Body.segments (Text.trim rest)).mapM (BodyEntry.read options number) <;> rfl
      | some body =>
          simp only [openTable, Interface.opening?, header, closed, OpenTable.add, Option.map_some]
          cases (Body.segments (Text.trim body)).mapM (BodyEntry.read options number) <;> rfl

theorem step_of_openTable {tables : List Table} {metadata pending : List Text} {next : Progress}
    (read : openTable options { tables, metadata, place := .between pending } pending number
      (Text.trimLeft line) = .ok next) :
    Step options number line { tables, metadata, place := .between pending } next := by
  rw [openTable_eq] at read
  split at read
  · cases read
  · next opening opens =>
      obtain ⟨entries, entered, read⟩ := exists_of_bind_eq_ok read
      dsimp only at read
      split at read
      · next closes =>
          obtain ⟨closed, close, read⟩ := exists_of_bind_eq_ok read
          cases read
          exact .oneLine opens closes entered close
      · next stays =>
          cases read
          exact .opens opens (by simpa using stays) entered

/-- The reader does with a line what the relation says. -/
theorem step_of_readLine {progress next : Progress}
    (read : progress.readLine options number line = .ok next) :
    Step options number line progress next := by
  obtain ⟨tables, metadata, place⟩ := progress
  cases place with
  | between pending =>
      dsimp only [readLine] at read
      split at read
      · next empty =>
          cases read
          exact .blank (Text.trim_eq_nil_iff.mpr (List.isEmpty_iff.mp empty))
      · split at read
        · next starts =>
            cases read
            rw [Comment.content_trimLeft]
            exact .comment starts
        · split at read
          · exact step_of_openTable read
          · cases read
  | inside table =>
      dsimp only [readLine] at read
      split at read
      · next brace =>
          obtain ⟨closed, close, read⟩ := exists_of_bind_eq_ok read
          cases read
          exact .closes brace close
      · next stays =>
          split at read
          · next empty =>
              cases read
              exact .skips (List.isEmpty_iff.mp empty)
          · next filled =>
              obtain ⟨longer, added, read⟩ := exists_of_bind_eq_ok read
              cases read
              obtain ⟨entries, entered, added⟩ := exists_of_bind_eq_ok added
              cases added
              rw [List.mapM_cons, List.mapM_nil] at entered
              obtain ⟨entry, one, entered⟩ := exists_of_bind_eq_ok entered
              cases entered
              exact .entry stays (by simpa using filled) one

/-! ## What stops the reader -/

variable {progress : Progress} {fault : ReadError}

theorem exists_of_finishTable_eq_error {table : OpenTable}
    (failed : progress.finishTable options table = .error fault) :
    ∃ comment ∈ table.metadata, BodyEntry.readConstraint options comment = .error fault := by
  rcases error_of_bind_eq_error failed with refused | ⟨_, _, impossible⟩
  · exact OpenTable.exists_of_close_eq_error refused
  · cases impossible

theorem stop_of_openTable {pending : List Text}
    (failed : progress.openTable options pending number (Text.trimLeft line) = .error fault) :
    Stop options number line (.between pending) fault := by
  rw [openTable_eq] at failed
  split at failed
  · cases failed
    exact .header
  · next opening opens =>
      rcases error_of_bind_eq_error failed with unread | ⟨entries, _, failed⟩
      · obtain ⟨segment, member, fails⟩ := exists_of_mapM_eq_error unread
        exact .segment opens member fails
      · dsimp only at failed
        split at failed
        · obtain ⟨comment, member, fails⟩ := exists_of_finishTable_eq_error failed
          exact .comment member fails
        · cases failed

/-- The reader is stopped by a line as the relation says. -/
theorem stop_of_readLine (failed : progress.readLine options number line = .error fault) :
    Stop options number line progress.place fault := by
  obtain ⟨tables, metadata, place⟩ := progress
  cases place with
  | between pending =>
      dsimp only [readLine] at failed
      split at failed
      · cases failed
      · split at failed
        · cases failed
        · split at failed
          · exact stop_of_openTable failed
          · cases failed
            exact .content
  | inside table =>
      dsimp only [readLine] at failed
      split at failed
      · obtain ⟨comment, member, fails⟩ := exists_of_finishTable_eq_error failed
        exact .comment member fails
      · split at failed
        · cases failed
        · rcases error_of_bind_eq_error failed with refused | ⟨_, _, impossible⟩
          · rcases error_of_bind_eq_error refused with unread | ⟨_, _, impossible⟩
            · obtain ⟨entry, member, fails⟩ := exists_of_mapM_eq_error unread
              rw [List.mem_singleton] at member
              exact .entry (member ▸ fails)
            · cases impossible
          · cases impossible

end Progress

/-! ## Whole documents -/

variable {options : ReadOptions} {text : Text}

/-- A document is read when its lines are, and no table is left open behind them. -/
theorem Schema.exists_of_read {schema : Schema} (found : read options text = .ok schema) :
    ∃ tables metadata pending,
      Progress.readLines options {} 1 text.lines =
        .ok { tables, metadata, place := .between pending } ∧
      schema = {
        tables
        metadata := metadata ++ pending
        annotations := if options.skipAnnotations then []
          else Tag.readLines (metadata ++ pending) } := by
  obtain ⟨⟨tables, metadata, place⟩, run, finished⟩ := exists_of_bind_eq_ok found
  cases place with
  | inside table => cases finished
  | between pending => exact ⟨tables, metadata, pending, run, (Except.ok.inj finished).symm⟩

/-- A document is not read when one of its lines stops the reader, or a table is left open. -/
theorem Schema.stopped_or_open_of_read {fault : ReadError}
    (failed : read options text = .error fault) :
    Progress.readLines options {} 1 text.lines = .error fault ∨
      ∃ tables metadata table,
        Progress.readLines options {} 1 text.lines =
          .ok { tables, metadata, place := .inside table } ∧
        fault = .malformed {
          line := table.line, defect := .unclosedInterface table.name, source := table.header } := by
  rcases error_of_bind_eq_error failed with stopped | ⟨⟨tables, metadata, place⟩, run, unfinished⟩
  · exact Or.inl stopped
  · cases place with
    | between pending => cases unfinished
    | inside table => exact Or.inr ⟨tables, metadata, table, run, (Except.error.inj unfinished).symm⟩

end SchemaNotation
