import SchemaNotation.Text.Digit

/-!
# Integers in decimal

Integers are unbounded, but a written integer with more than `digitLimit` digits
is refused.
-/

namespace SchemaNotation.Integer

/-- The largest number of digits an integer may be written with. -/
def digitLimit : Nat := 4300

/-- A written integer that has more digits than the limit. -/
structure TooLong where
  digits : Nat
  deriving BEq, DecidableEq, Repr

/-- The decimal form of a number.  The limit holds for reading only: any number of digits is
written here, though a conversion that is limited both ways refuses to write more than
`digitLimit` of them. -/
def render : Int → Text
  | .ofNat value => Nat.toDigits 10 value
  | .negSucc value => '-' :: Nat.toDigits 10 (value + 1)

/-- The complaint about a written integer with too many digits. -/
def TooLong.message (fault : TooLong) : Text :=
  "Exceeds the limit (".toList ++ render digitLimit ++
    " digits) for integer string conversion: value has ".toList ++ render fault.digits ++
    " digits; use sys.set_int_max_str_digits() to increase the limit".toList

/-- The value of a run of digits within the limit. -/
def ofDigits (digits : Text) : Except TooLong Nat :=
  if digits.length ≤ digitLimit then .ok (Text.digitsValue digits) else .error ⟨digits.length⟩

/-- Remove the underscores that stand alone between two digits of a run that
starts with a digit. -/
def ungroup? : Text → Option Text
  | [] => some []
  | c :: text =>
      if c = '_' then
        match text with
        | [] => none
        | next :: _ => if isDigit next then ungroup? text else none
      else if isDigit c then (ungroup? text).map (c :: ·)
      else none

/-- Read an unsigned integer with optional underscores between digits. -/
def readUnsigned? : Text → Option Nat
  | [] => none
  | c :: text => do
      guard (isDigit c)
      let digits ← ungroup? (c :: text)
      (ofDigits digits).toOption

/-- Read a trimmed text as an integer: an optional sign, and digits with optional
underscores between them. -/
def read? : Text → Option Int
  | '-' :: text => (readUnsigned? text).map fun value => -(value : Int)
  | '+' :: text => (readUnsigned? text).map Int.ofNat
  | text => (readUnsigned? text).map Int.ofNat

end SchemaNotation.Integer
