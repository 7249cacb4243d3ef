/-!
# Text

Every reader and writer of the notation works on a text given as its sequence of
code points.  This module holds the type, the blank characters, and the few
operations on texts that all other modules share: trimming, cutting off a fixed
lead, splitting at a separator, and padding.
-/

namespace SchemaNotation

/-- A text is its sequence of code points.  Lengths, positions and widths all
count code points. -/
abbrev Text := List Char

/-- The apostrophe, which delimits string literals. -/
abbrev apostrophe : Char := '\x27'

/-- The backtick, which delimits quoted identifiers. -/
abbrev backtick : Char := '\x60'

/-- The blank characters: the control characters that separate lines, fields or
records, the space, and the spaces of the Unicode categories Zs, Zl and Zp. -/
def isBlank (c : Char) : Bool :=
  let code := c.toNat
  (9 ≤ code && code ≤ 13) || (28 ≤ code && code ≤ 32) || code == 0x85 || code == 0xA0 ||
    code == 0x1680 || (0x2000 ≤ code && code ≤ 0x200A) || code == 0x2028 || code == 0x2029 ||
    code == 0x202F || code == 0x205F || code == 0x3000

namespace Text

/-- Drop the blanks at the start. -/
def trimLeft (text : Text) : Text :=
  text.dropWhile isBlank

/-- Drop the blanks at the end. -/
def trimRight (text : Text) : Text :=
  (text.reverse.dropWhile isBlank).reverse

/-- Drop the blanks at both ends. -/
def trim (text : Text) : Text :=
  trimRight (trimLeft text)

/-- A text with no character, or with blanks only. -/
def isAllBlank (text : Text) : Bool :=
  text.all isBlank

/-- What follows `lead`, when the text starts with it. -/
def after? : (lead text : Text) → Option Text
  | [], text => some text
  | _ :: _, [] => none
  | expected :: lead, c :: text => if c = expected then after? lead text else none

/-- Whether the text starts with `lead`. -/
def startsWith (text lead : Text) : Bool :=
  (after? lead text).isSome

/-- What stands before `tail`, when the text ends with it. -/
def before? (tail text : Text) : Option Text :=
  (after? tail.reverse text.reverse).map List.reverse

/-- Put one character in front of the first of several pieces. -/
def pushFront (c : Char) : List Text → List Text
  | [] => [[c]]
  | piece :: pieces => (c :: piece) :: pieces

/-- The pieces between the occurrences of a separator, the empty ones included. -/
def splitOn (separator : Char) : Text → List Text
  | [] => [[]]
  | c :: text =>
      if c = separator then [] :: splitOn separator text
      else pushFront c (splitOn separator text)

/-- The maximal runs of characters that are not blank. -/
def words (text : Text) : List Text :=
  let pieces := text.foldr (fun c pieces => if isBlank c then [] :: pieces else pushFront c pieces) [[]]
  pieces.filter fun piece => !piece.isEmpty

/-- Read up to a closing character that no second one follows.  Two of them together
stand for one.  Returns what was read and what follows the closing character. -/
def delimited? (closing : Char) : Text → Option (Text × Text)
  | [] => none
  | [c] => if c = closing then some ([], []) else none
  | c :: next :: text =>
      if c ≠ closing then (delimited? closing (next :: text)).map fun (run, rest) => (c :: run, rest)
      else if next = closing then
        (delimited? closing text).map fun (run, rest) => (closing :: run, rest)
      else some ([], next :: text)

/-- Extend a text with spaces to the given width; a wider text stays as it is. -/
def padRight (width : Nat) (text : Text) : Text :=
  text ++ List.replicate (width - text.length) ' '

theorem length_trimLeft_le (text : Text) : (trimLeft text).length ≤ text.length :=
  (List.dropWhile_sublist isBlank).length_le

end Text

end SchemaNotation
