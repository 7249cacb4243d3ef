import SchemaNotation.Text.Basic

/-!
# Comments

A comment starts at the first `//` outside a string literal and runs to the end of the
line.  A literal is delimited by apostrophes, so the start of a comment has an even
number of them before it.
-/

namespace SchemaNotation

namespace Comment

/-- Whether a comment starts right here, outside a literal. -/
def startsHere (text : Text) : Bool :=
  text.startsWith "//".toList

/-- The text of a comment line, without the slashes and the blanks around. -/
def content (line : Text) : Text :=
  let line := Text.trim line
  match Text.after? "//".toList line with
  | some text => Text.trim text
  | none => line

/-- The position of a comment in a text that starts inside or outside a literal. -/
def startFrom? (inLiteral : Bool) : Text → Option Nat
  | [] => none
  | c :: text =>
      if c = apostrophe then (startFrom? (!inLiteral) text).map (· + 1)
      else if !inLiteral && startsHere (c :: text) then some 0
      else (startFrom? inLiteral text).map (· + 1)

/-- The position of the first `//` outside a literal. -/
def start? (text : Text) : Option Nat :=
  startFrom? false text

/-- The text before the comment, and the text after its slashes, if there is one. -/
def split (text : Text) : Text × Option Text :=
  match start? text with
  | none => (text, none)
  | some position => (text.take position, some (text.drop (position + 2)))

/-- The comment line for a text.  Blanks at its end are left out. -/
def line (text : Text) : Text :=
  Text.trimRight ("// ".toList ++ text)

end Comment

/-- The pieces of a one-line table body: it is cut at each semicolon outside literals
and before the comment. -/
def Body.piecesFrom (inLiteral : Bool) : Text → List Text
  | [] => [[]]
  | c :: text =>
      if c = apostrophe then Text.pushFront c (piecesFrom (!inLiteral) text)
      else if !inLiteral && Comment.startsHere (c :: text) then [c :: text]
      else if c = ';' && !inLiteral then [] :: piecesFrom inLiteral text
      else Text.pushFront c (piecesFrom inLiteral text)

/-- Put a comment back behind the column before it. -/
def Body.attachComments : List Text → List Text
  | [] => []
  | [segment] => [segment]
  | segment :: next :: segments =>
      if Comment.startsHere next && !Comment.startsHere segment then
        attachComments ((segment ++ "; ".toList ++ next) :: segments)
      else segment :: attachComments (next :: segments)
termination_by segments => segments.length
decreasing_by
  · exact Nat.lt_succ_self (segments.length + 1)
  · exact Nat.lt_succ_self (segments.length + 1)

/-- The lines that a one-line table body stands for: its trimmed pieces, where a
comment belongs to the column before it. -/
def Body.segments (text : Text) : List Text :=
  attachComments (((piecesFrom false text).map Text.trim).filter fun piece => !piece.isEmpty)

end SchemaNotation
