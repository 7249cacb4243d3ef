import SchemaNotation.Text.CodePoints

/-!
# Decimal digits

Every script writes its ten decimal digits at consecutive code points, so a digit
is known by the code point of its zero.
-/

namespace SchemaNotation

/-- The code points of the digit zero in each script. -/
def zeroDigits : List Nat :=
  [48, 1632, 1776, 1984, 2406, 2534, 2662, 2790, 2918, 3046, 3174, 3302, 3430, 3558, 3664,
   3792, 3872, 4160, 4240, 6112, 6160, 6470, 6608, 6784, 6800, 6992, 7088, 7232, 7248, 42528,
   43216, 43264, 43472, 43504, 43600, 44016, 65296, 66720, 68912, 69734, 69872, 69942, 70096,
   70384, 70736, 70864, 71248, 71360, 71472, 71904, 72016, 72784, 73040, 73120, 92768, 92864,
   93008, 120782, 120792, 120802, 120812, 120822, 123200, 123632, 125264, 130032]

/-- The value of a decimal digit of any script. -/
def digitValue? (c : Char) : Option Nat :=
  (zeroDigits.find? fun first => first ≤ c.toNat && c.toNat ≤ first + 9).map (c.toNat - ·)

/-- The decimal digits of any script. -/
def isDigit (c : Char) : Bool :=
  (digitValue? c).isSome

namespace Text

/-- The number that a run of decimal digits denotes. -/
def digitsValue (digits : Text) : Nat :=
  digits.foldl (fun value c => 10 * value + (digitValue? c).getD 0) 0

/-- Read a longest run of decimal digits, which must not be empty. -/
def digits? (text : Text) : Option (Text × Text) :=
  match text.takeWhile isDigit with
  | [] => none
  | digits => some (digits, text.dropWhile isDigit)

end Text

end SchemaNotation
