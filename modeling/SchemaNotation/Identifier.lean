import SchemaNotation.Text.Basic

/-!
# Identifiers

A plain identifier is an ASCII letter or underscore followed by ASCII letters,
digits and underscores.  Every other name is written between backticks, with each
backtick of the name written twice.

Reading pairs up backticks from the left, so the quote ends at the first backtick
that is not followed by another one.  A quote that never ends this way is closed at
its last pair, and the second backtick of that pair is left unread.
-/

namespace SchemaNotation.Identifier

/-- The characters a plain identifier may start with. -/
def isStart (c : Char) : Bool :=
  c.isAlpha || c == '_'

/-- The characters a plain identifier may continue with. -/
def isContinue (c : Char) : Bool :=
  c.isAlphanum || c == '_'

/-- A name that needs no quotes. -/
def isPlain : Text → Bool
  | [] => false
  | c :: name => isStart c && name.all isContinue

/-- Write every backtick twice. -/
def double (name : Text) : Text :=
  name.flatMap fun c => if c = backtick then [backtick, backtick] else [c]

/-- Write every two adjacent backticks as one, pairing from the left. -/
def collapse : Text → Text
  | [] => []
  | [c] => [c]
  | c :: next :: text =>
      if c = backtick ∧ next = backtick then backtick :: collapse text
      else c :: collapse (next :: text)

/-- The quoted form of a name. -/
def quote (name : Text) : Text :=
  backtick :: double name ++ [backtick]

/-- Names written without quotes: the plain ones, also with one line feed at their
end. -/
def isBare (name : Text) : Bool :=
  isPlain name || (name.getLast? == some '\n' && isPlain name.dropLast)

/-- The written form of a name. -/
def render (name : Text) : Text :=
  if isBare name then name else quote name

/-- Read a quoted name after its opening backtick, up to the first backtick that has
no partner.  Returns the name and what follows the closing backtick. -/
def closing? (text : Text) : Option (Text × Text) :=
  Text.delimited? backtick text

/-- Read a quoted name after its opening backtick, up to its last pair of backticks.
The second backtick of the pair stays in the rest. -/
def closingAtPair? : Text → Option (Text × Text)
  | [] => none
  | [_] => none
  | c :: next :: text =>
      if c ≠ backtick then
        (closingAtPair? (next :: text)).map fun (name, rest) => (c :: name, rest)
      else if next = backtick then
        match closingAtPair? text with
        | some (name, rest) => some (backtick :: name, rest)
        | none => some ([], next :: text)
      else none

/-- Read a quoted name with its opening backtick.  Only a backtick without a partner
closes the name. -/
def readQuoted? : Text → Option (Text × Text)
  | [] => none
  | c :: text => if c = backtick then closing? text else none

/-- Read a plain identifier as far as it goes. -/
def readPlain? : Text → Option (Text × Text)
  | [] => none
  | c :: text =>
      if isStart c then some (c :: text.takeWhile isContinue, text.dropWhile isContinue)
      else none

/-- Read an identifier at the start of a text.  Returns the name and the rest. -/
def read? : Text → Option (Text × Text)
  | [] => none
  | c :: text =>
      if c = backtick then
        match closing? text with
        | some found => some found
        | none => closingAtPair? text
      else readPlain? (c :: text)

end SchemaNotation.Identifier
