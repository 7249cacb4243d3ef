import SchemaNotation.Text.Basic

/-!
# Sets of code points

The character classes beyond ASCII are given as sorted lists of closed intervals
of code points.
-/

namespace SchemaNotation

/-- Membership of a character in a union of closed intervals of code points. -/
def inRanges (ranges : List (Nat × Nat)) (c : Char) : Bool :=
  ranges.any fun range => range.1 ≤ c.toNat && c.toNat ≤ range.2

/-- The code points up to U+007F. -/
def isAscii (c : Char) : Bool :=
  c.toNat < 128

end SchemaNotation
