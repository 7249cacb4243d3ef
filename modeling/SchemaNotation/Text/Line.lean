import SchemaNotation.Text.Basic

/-!
# Physical lines

A text is read line by line.  A line ends at a line feed, at a carriage return, or
at the two together.  A cursor is a position over the lines of a text; a negative
position counts from the last line.
-/

namespace SchemaNotation

/-- The physical lines of a text, without their ends.  There is always at least one. -/
def Text.lines : Text → List Text
  | [] => [[]]
  | '\r' :: '\n' :: text => [] :: lines text
  | c :: text => if c = '\r' ∨ c = '\n' then [] :: lines text else pushFront c (lines text)

/-- A position over the lines of a text. -/
structure Cursor where
  lines : List Text
  position : Int := 0
  deriving BEq, DecidableEq, Repr

namespace Cursor

/-- A cursor at the first line of a text. -/
def ofText (text : Text) : Cursor :=
  { lines := text.lines }

/-- Move by a number of lines, backwards when it is negative. -/
def advance (cursor : Cursor) (count : Int) : Cursor :=
  { cursor with position := cursor.position + count }

/-- The number of the current line, counted from one. -/
def lineNumber (cursor : Cursor) : Int :=
  cursor.position + 1

/-- Whether the cursor has passed the last line. -/
def atEnd (cursor : Cursor) : Bool :=
  cursor.lines.length ≤ cursor.position

/-- The line at the cursor.  A negative position counts from the end. -/
def line? (cursor : Cursor) : Option Text :=
  let index := if cursor.position < 0 then cursor.position + cursor.lines.length
    else cursor.position
  if index < 0 then none else cursor.lines[index.toNat]?

/-- The line at the cursor without its leading blanks. -/
def current? (cursor : Cursor) : Option Text :=
  cursor.line?.map Text.trimLeft

/-- Whether the cursor is at a blank line; `none` before the first line. -/
def isBlankLine? (cursor : Cursor) : Option Bool :=
  if cursor.atEnd then some false else cursor.line?.map Text.isAllBlank

/-- Whether the cursor is at a comment line; `none` before the first line. -/
def isCommentLine? (cursor : Cursor) : Option Bool :=
  if cursor.atEnd then some false
  else cursor.current?.map fun line => line.startsWith "//".toList

end Cursor

end SchemaNotation
