import SchemaNotation.Fault

/-!
# Layout

The options for writing a schema: the indent of a body line, the columns at which
types and comments start, and the order of a table's columns.
-/

namespace SchemaNotation

/-- The options for writing a schema. -/
structure Layout where
  indent : Nat := 2
  typeAlignment : Nat := 25
  commentAlignment : Nat := 45
  sortColumns : Bool := true
  alignTypes : Bool := false
  deriving BEq, DecidableEq, Repr

/-- A width must not be negative. -/
def Layout.checkWidth : Int → Checked Nat
  | .ofNat width => .ok width
  | .negSucc _ => Checked.fault .belowMinimum

/-- Build a layout from integers; each must not be negative. -/
def Layout.check (indent typeAlignment commentAlignment : Int) (sortColumns alignTypes : Bool) :
    Checked Layout :=
  let width (name : String) (value : Int) : Checked Nat :=
    (checkWidth value).below (.field name.toList)
  (Checked.both (width "indent" indent) (Checked.both (width "type_alignment" typeAlignment)
    (width "comment_alignment" commentAlignment))).map
      fun (indent, typeAlignment, commentAlignment) =>
        { indent, typeAlignment, commentAlignment, sortColumns, alignTypes }

end SchemaNotation
