import SchemaNotation.Column.Reader
import SchemaNotation.Text.Line

/-!
# Documents

A document is read line by line.  Between tables, comment lines gather until an
interface takes them as its metadata or a blank line hands them to the schema.  Inside
an interface every line is an entry of the table, up to the line that closes it.
-/

namespace SchemaNotation

namespace Interface

/-- The keyword that opens a table. -/
def keyword : Text := "interface".toList

/-- Whether a line starts with the keyword as a whole word. -/
def startsHere (line : Text) : Bool :=
  match Text.after? keyword line with
  | some rest => Text.atWordEnd rest
  | none => false

/-- Read the name of a table, quoted or plain. -/
def readName? (text : Text) : Option (Text × Text) :=
  match Identifier.readQuoted? text with
  | some found => some found
  | none => Identifier.readPlain? text

/-- Read a header up to its opening brace: the name of the table and the text behind
the brace. -/
def readHeader? (line : Text) : Option (Text × Text) := do
  let rest ← Text.after? keyword line
  let (name, rest) ← readName? (← Text.blanks? rest)
  let rest ← Text.after? ['\x7b'] (Text.trimLeft rest)
  return (name, rest)

end Interface

/-- What one line of a table body contributes. -/
inductive BodyEntry where
  | column (definition : Column)
  | constraint (stated : TableConstraint)
  | remark (text : Text)
  deriving BEq, DecidableEq, Repr

namespace BodyEntry

/-- The column of an entry. -/
def column? : BodyEntry → Option Column
  | .column definition => some definition
  | _ => none

/-- The table constraint of an entry. -/
def constraint? : BodyEntry → Option TableConstraint
  | .constraint stated => some stated
  | _ => none

/-- The remark of an entry. -/
def remark? : BodyEntry → Option Text
  | .remark text => some text
  | _ => none

/-- Read a comment text as a table constraint, unless constraints are left out. -/
def readConstraint (options : ReadOptions) (text : Text) :
    Except ReadError (Option TableConstraint) :=
  if options.skipConstraints then .ok none
  else (TableConstraint.read text).mapError .unknownKind

/-- Read one trimmed line of a table body. -/
def read (options : ReadOptions) (number : Int) (line : Text) : Except ReadError BodyEntry :=
  if Comment.startsHere line then do
    let text := Comment.content line
    match ← readConstraint options text with
    | some stated => return .constraint stated
    | none => return .remark text
  else if (Comment.split line).1.contains ':' then do
    return .column (← Column.read options number line)
  else
    throw (.malformed { line := number, defect := .unexpectedBodyContent line, source := line })

end BodyEntry

/-- A table whose closing brace has not been read yet. -/
structure OpenTable where
  name : Text
  line : Int
  header : Text
  metadata : List Text
  entries : List BodyEntry
  deriving BEq, DecidableEq, Repr

namespace OpenTable

/-- Read further lines of the body, all with the same line number. -/
def add (options : ReadOptions) (number : Int) (table : OpenTable) (lines : List Text) :
    Except ReadError OpenTable := do
  let entries ← lines.mapM (BodyEntry.read options number)
  return { table with entries := table.entries ++ entries }

/-- Close a table.  Constraints stated above it come before those inside it. -/
def close (options : ReadOptions) (table : OpenTable) : Except ReadError Table := do
  let stated ← table.metadata.mapM (BodyEntry.readConstraint options)
  return {
    name := table.name
    columns := table.entries.filterMap BodyEntry.column?
    constraints := stated.filterMap id ++ table.entries.filterMap BodyEntry.constraint?
    annotations := if options.skipAnnotations then [] else Tag.readLines table.metadata
    metadata := table.metadata
    remarks := table.entries.filterMap BodyEntry.remark?
  }

end OpenTable

/-- Where the reader of a document stands. -/
inductive Place where
  | between (pending : List Text)
  | inside (table : OpenTable)
  deriving BEq, DecidableEq, Repr

/-- What has been read of a document so far. -/
structure Progress where
  tables : List Table := []
  metadata : List Text := []
  place : Place := .between []
  deriving BEq, DecidableEq, Repr

namespace Progress

/-- Add a finished table. -/
def finishTable (options : ReadOptions) (progress : Progress) (table : OpenTable) :
    Except ReadError Progress := do
  let table ← table.close options
  return { progress with tables := progress.tables ++ [table], place := .between [] }

/-- Read an interface header.  A body may follow on the same line, and a closing brace
at the end of that line closes the table. -/
def openTable (options : ReadOptions) (progress : Progress) (pending : List Text)
    (number : Int) (header : Text) : Except ReadError Progress := do
  match Interface.readHeader? header with
  | none => throw (.malformed { line := number, defect := .invalidInterface, source := header })
  | some (name, rest) =>
      let table : OpenTable := { name, line := number, header, metadata := pending, entries := [] }
      match Text.before? ['\x7d'] (Text.trim rest) with
      | some body =>
          let table ← table.add options number (Body.segments (Text.trim body))
          progress.finishTable options table
      | none =>
          let table ← table.add options number (Body.segments (Text.trim rest))
          return { progress with place := .inside table }

/-- Read the line of the given number. -/
def readLine (options : ReadOptions) (progress : Progress) (number : Int) (line : Text) :
    Except ReadError Progress :=
  match progress.place with
  | .between pending =>
      let current := Text.trimLeft line
      if current.isEmpty then
        return { progress with metadata := progress.metadata ++ pending, place := .between [] }
      else if Comment.startsHere current then
        return { progress with place := .between (pending ++ [Comment.content current]) }
      else if Interface.startsHere current then
        progress.openTable options pending number current
      else
        throw (.malformed {
          line := number, defect := .unexpectedContent (Text.trim current), source := current })
  | .inside table =>
      let line := Text.trim line
      if line = ['\x7d'] then progress.finishTable options table
      else if line.isEmpty then return progress
      else do
        let table ← table.add options number [line]
        return { progress with place := .inside table }

/-- Read lines one after the other, numbered from the given number on. -/
def readLines (options : ReadOptions) : Progress → Int → List Text → Except ReadError Progress
  | progress, _, [] => .ok progress
  | progress, number, line :: lines => do
      let progress ← progress.readLine options number line
      readLines options progress (number + 1) lines

/-- The schema at the end of a document.  A table must not be left open. -/
def finish (options : ReadOptions) (progress : Progress) : Except ReadError Schema :=
  match progress.place with
  | .inside table =>
      throw (.malformed {
        line := table.line, defect := .unclosedInterface table.name, source := table.header })
  | .between pending =>
      let metadata := progress.metadata ++ pending
      return {
        tables := progress.tables
        metadata
        annotations := if options.skipAnnotations then [] else Tag.readLines metadata
      }

end Progress

/-- Read a document.  The first malformed line is an error. -/
def Schema.read (options : ReadOptions) (text : Text) : Except ReadError Schema := do
  let progress ← Progress.readLines options {} 1 text.lines
  progress.finish options

end SchemaNotation
