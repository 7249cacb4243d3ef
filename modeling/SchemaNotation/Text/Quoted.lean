import SchemaNotation.Text.Printable

/-!
# Quoted text for messages

A message shows a name in quotes, with every character that cannot be printed
written as an escape.
-/

namespace SchemaNotation.Text

/-- The lower case hexadecimal form of a code point in a fixed number of digits. -/
def hexadecimal (width code : Nat) : Text :=
  let digits := Nat.toDigits 16 code
  List.replicate (width - digits.length) '0' ++ digits

/-- A character inside quotes.  The quote itself and the backslash are escaped, and
so is what cannot be printed. -/
def escapeFor (quote c : Char) : Text :=
  let code := c.toNat
  if c = quote ∨ c = '\\' then ['\\', c]
  else if c = '\t' then "\\t".toList
  else if c = '\n' then "\\n".toList
  else if c = '\r' then "\\r".toList
  else if isPrintable c then [c]
  else if code < 0x100 then "\\x".toList ++ hexadecimal 2 code
  else if code < 0x10000 then "\\u".toList ++ hexadecimal 4 code
  else "\\U".toList ++ hexadecimal 8 code

/-- Quote a text with apostrophes, or with double quotes when it has apostrophes
and no double quote. -/
def quoted (text : Text) : Text :=
  let quote := if text.contains apostrophe && !text.contains '"' then '"' else apostrophe
  quote :: text.flatMap (escapeFor quote) ++ [quote]

end SchemaNotation.Text
