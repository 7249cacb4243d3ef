import SchemaNotation.Decimal
import SchemaNotation.Fault
import SchemaNotation.Text.Letter

/-!
# Value trees

A schema can be given as a tree of plain values.  This module holds the trees and the
checks of single values: texts, integers, flags and sequences.  A number or a text that
stands for an integer or a flag is accepted in place of one.
-/

namespace SchemaNotation

/-- A tree of plain values.  A number without a point is an integer. -/
inductive Value where
  | null
  | boolean (value : Bool)
  | integer (value : Int)
  | decimal (number : Decimal)
  | text (value : Text)
  | list (items : List Value)
  | record (fields : List (Text × Value))
  deriving Inhabited

namespace Value

/-- The integer that a number with a point equals.  Its size is limited to less than the
largest machine word. -/
def wholeNumber (number : Decimal) : Except FaultKind Int :=
  match number.magnitude with
  | .fraction => .error .fractionalInteger
  | .infinite => .error .infiniteInteger
  | .whole value =>
      if value < 1 <<< 63 then .ok (if number.digits < 0 then -(value : Int) else value)
      else .error .oversizedInteger

/-- The blanks that may surround an integer in a text: all but the information
separators. -/
def isPadding (c : Char) : Bool :=
  isBlank c && !(28 ≤ c.toNat && c.toNat ≤ 31)

/-- Drop a decimal point that zeros follow, at least one and nothing else. -/
def dropZeroPlaces (text : Text) : Text :=
  match text.dropWhile (· != '.') with
  | _ :: '0' :: places => if places.all (· == '0') then text.takeWhile (· != '.') else text
  | _ => text

/-- Drop the zeros in front of another digit, with any underscores among them. -/
def dropLeadingZeros (text : Text) : Text :=
  let isLeading := fun c => c == '0' || c == '_'
  let rest := text.dropWhile isLeading
  if text.head? = some '0' then
    if rest.head?.any Char.isDigit then rest
    else (text.takeWhile isLeading).getLast?.toList ++ rest
  else text

/-- The sign of a written number, which is true for a minus, and what follows it. -/
def splitSign : Text → Bool × Text
  | '-' :: unsigned => (true, unsigned)
  | '+' :: unsigned => (false, unsigned)
  | unsigned => (false, unsigned)

/-- Read a text as an integer: ASCII digits with an optional sign, single underscores
between digits, blanks around them, and places that are all zero.  Digits and minus sign
together are limited. -/
def readInteger (text : Text) : Except FaultKind Int :=
  let (isNegative, unsigned) :=
    splitSign ((text.dropWhile isPadding).reverse.dropWhile isPadding).reverse
  let written := dropZeroPlaces (dropLeadingZeros unsigned)
  if written.all isAscii && written.head?.any isDigit then
    match Integer.ungroup? written with
    | none => .error .unreadableInteger
    | some digits =>
        let value : Int := Text.digitsValue digits
        if Integer.digitLimit < digits.length + isNegative.toNat then .error .oversizedInteger
        else .ok (if isNegative then -value else value)
  else .error .unreadableInteger

/-- The words for true. -/
def trueWords : List Text := ["1", "t", "y", "yes", "on", "true"].map String.toList

/-- The words for false. -/
def falseWords : List Text := ["0", "f", "n", "no", "off", "false"].map String.toList

/-- Read a text as a flag, in any case. -/
def readFlag? (text : Text) : Option Bool :=
  let word := text.map Char.toLower
  if trueWords.contains word then some true
  else if falseWords.contains word then some false
  else none

/-- Accept a text. -/
def toText : Value → Checked Text
  | .text value => .ok value
  | _ => Checked.fault .notText

/-- Accept an integer, or what stands for one. -/
def toInteger : Value → Checked Int
  | .integer value => .ok value
  | .decimal number =>
      match wholeNumber number with
      | .ok value => .ok value
      | .error kind => Checked.fault kind
  | .boolean value => .ok (if value then 1 else 0)
  | .text value =>
      match readInteger value with
      | .ok value => .ok value
      | .error kind => Checked.fault kind
  | _ => Checked.fault .notInteger

/-- Whether an integer fits into a machine word of 64 bits. -/
def fitsWord (value : Int) : Bool :=
  let bound : Int := (1 <<< 63 : Nat)
  value < bound && -bound ≤ value

/-- Take an integer for a flag.  What fits into no machine word is nothing like one. -/
def flagOfInteger (value : Int) : Checked Bool :=
  if value = 0 then .ok false
  else if value = 1 then .ok true
  else Checked.fault (if fitsWord value then .unreadableBoolean else .notBoolean)

/-- Accept a flag, or what stands for one. -/
def toFlag : Value → Checked Bool
  | .boolean value => .ok value
  | .integer value => flagOfInteger value
  | .decimal number =>
      match wholeNumber number with
      | .ok value => flagOfInteger value
      | .error _ => Checked.fault .notBoolean
  | .text value =>
      match readFlag? value with
      | some flag => .ok flag
      | none => Checked.fault .unreadableBoolean
  | _ => Checked.fault .notBoolean

variable {α : Type}

/-- Accept null, or a value that passes a check. -/
def toOption (check : Value → Checked α) : Value → Checked (Option α)
  | .null => .ok none
  | value => (check value).map some

/-- Check every item of a list at its position. -/
def checkItems (check : Value → Checked α) (items : List Value) : Checked (List α) :=
  Checked.all (items.mapIdx fun index item => (check item).below (.item index))

/-- Accept a sequence whose items pass a check. -/
def toSequence (check : Value → Checked α) : Value → Checked (List α)
  | .list items => checkItems check items
  | _ => Checked.fault .notSequence

/-- Accept a list at the root of a tree whose items pass a check. -/
def toList (check : Value → Checked α) : Value → Checked (List α)
  | .list items => checkItems check items
  | _ => Checked.fault .notList

/-- The field of a record must be present and pass a check. -/
def required (fields : List (Text × Value)) (name : String) (check : Value → Checked α) :
    Checked α :=
  let found := match fields.lookup name.toList with
    | some value => check value
    | none => Checked.fault .missing
  found.below (.field name.toList)

/-- The field of a record must pass a check if it is present. -/
def optional (fields : List (Text × Value)) (name : String) (absent : α)
    (check : Value → Checked α) : Checked α :=
  match fields.lookup name.toList with
  | some value => (check value).below (.field name.toList)
  | none => .ok absent

/-- Accept a record whose fields pass a check. -/
def toRecord (check : List (Text × Value) → Checked α) : Value → Checked α
  | .record fields => check fields
  | _ => Checked.fault .notRecord

/-- Accept a record whose `kind` names one of several variants.  The variant's name is a
step of the path to its fields. -/
def toTagged (variant? : Text → Option (List (Text × Value) → Checked α)) : Value → Checked α
  | .record fields =>
      match fields.lookup "kind".toList with
      | none => Checked.fault .tagMissing
      | some (.text tag) =>
          match variant? tag with
          | some check => (check fields).below (.field tag)
          | none => Checked.fault .tagUnknown
      | some _ => Checked.fault .tagUnknown
  | _ => Checked.fault .notTagged

end Value

end SchemaNotation
