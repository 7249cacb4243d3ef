import SchemaNotation.Text.Basic

/-!
# Numbers with a point

A number that is written with a point is kept in binary with a limited precision: it
becomes the nearest number with 53 binary digits, and of two equally near ones the one
with an even last digit.  Numbers that are too large become infinite.
-/

namespace SchemaNotation

/-- A number with a point: its digits over a power of ten. -/
structure Decimal where
  digits : Int
  places : Nat
  deriving BEq, DecidableEq, Repr

/-- What a number is once it is kept in binary. -/
inductive Magnitude where
  | whole (value : Nat)
  | fraction
  | infinite
  deriving BEq, DecidableEq, Repr

namespace Decimal

/-- The number of binary digits that are kept. -/
def precision : Nat := 53

/-- The least power of two that the last binary digit can stand for. -/
def leastExponent : Int := -1074

/-- The power of two from which on numbers are infinite. -/
def infiniteExponent : Nat := 1024

/-- The quotient of two numbers, rounded to the nearest integer, a half to the even
neighbour. -/
def roundQuotient (numerator denominator : Nat) : Nat :=
  let quotient := numerator / denominator
  let twice := 2 * (numerator % denominator)
  if twice < denominator || (twice == denominator && quotient % 2 == 0) then quotient
  else quotient + 1

/-- A fraction over a power of two, as a fraction again. -/
def scale (numerator denominator : Nat) : (exponent : Int) → Nat × Nat
  | .ofNat exponent => (numerator, denominator <<< exponent)
  | .negSucc exponent => (numerator <<< (exponent + 1), denominator)

/-- The largest power of two that is at most a positive fraction.  The lengths of the two
numbers give it up to one. -/
def exponentOf (numerator denominator : Nat) : Int :=
  let estimate : Int := Nat.log2 numerator - Nat.log2 denominator
  let (above, below) := scale numerator denominator estimate
  if below ≤ above then estimate else estimate - 1

/-- The number that a significand times a power of two stands for. -/
def magnitudeOf (significand : Nat) : (exponent : Int) → Magnitude
  | .ofNat exponent =>
      let value := significand <<< exponent
      if value < 1 <<< infiniteExponent then .whole value else .infinite
  | .negSucc exponent =>
      let unit := 1 <<< (exponent + 1)
      if significand % unit = 0 then .whole (significand / unit) else .fraction

/-- What is kept of a number, apart from its sign. -/
def magnitude (number : Decimal) : Magnitude :=
  let numerator := number.digits.natAbs
  let denominator := Nat.pow 10 number.places
  if numerator = 0 then .whole 0
  else
    let exponent := max (exponentOf numerator denominator - (precision - 1)) leastExponent
    let (above, below) := scale numerator denominator exponent
    magnitudeOf (roundQuotient above below) exponent

end Decimal

end SchemaNotation
