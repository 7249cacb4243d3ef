import SchemaNotation.Text.Integer

/-!
# Faults of a value tree

Checking a tree of values against a model does not stop at the first fault.  All of
them are collected, each with its path from the root.
-/

namespace SchemaNotation

/-- One step of a path into a value tree. -/
inductive PathStep where
  | field (name : Text)
  | item (index : Nat)
  deriving BEq, DecidableEq, Repr

/-- What is wrong with a value. -/
inductive FaultKind where
  | missing
  | notText
  | notInteger
  | unreadableInteger
  | oversizedInteger
  | fractionalInteger
  | infiniteInteger
  | notBoolean
  | unreadableBoolean
  | notSequence
  | notList
  | notRecord
  | notTagged
  | tagMissing
  | tagUnknown
  | notLiteral
  | belowMinimum
  deriving BEq, DecidableEq, Repr

/-- The name of a kind of fault. -/
def FaultKind.name : FaultKind → Text
  | .missing => "missing".toList
  | .notText => "string_type".toList
  | .notInteger => "int_type".toList
  | .unreadableInteger => "int_parsing".toList
  | .oversizedInteger => "int_parsing_size".toList
  | .fractionalInteger => "int_from_float".toList
  | .infiniteInteger => "finite_number".toList
  | .notBoolean => "bool_type".toList
  | .unreadableBoolean => "bool_parsing".toList
  | .notSequence => "tuple_type".toList
  | .notList => "list_type".toList
  | .notRecord => "model_type".toList
  | .notTagged => "model_attributes_type".toList
  | .tagMissing => "union_tag_not_found".toList
  | .tagUnknown => "union_tag_invalid".toList
  | .notLiteral => "literal_error".toList
  | .belowMinimum => "greater_than_equal".toList

/-- A fault at a place of a value tree. -/
structure Fault where
  path : List PathStep
  kind : FaultKind
  deriving BEq, DecidableEq, Repr

/-- The text of a path step. -/
def PathStep.render : PathStep → Text
  | .field name => name
  | .item index => Integer.render index

/-- The path of a fault, its steps joined by points. -/
def Fault.location (fault : Fault) : Text :=
  List.intercalate ['.'] (fault.path.map PathStep.render)

/-- A checked value, or all faults that were found. -/
abbrev Checked (α : Type) := Except (List Fault) α

namespace Checked

variable {α β : Type}

/-- A single fault at the root. -/
def fault (kind : FaultKind) : Checked α :=
  .error [{ path := [], kind }]

/-- Check two values and keep the faults of both. -/
def both : Checked α → Checked β → Checked (α × β)
  | .ok first, .ok second => .ok (first, second)
  | .ok _, .error faults => .error faults
  | .error faults, .ok _ => .error faults
  | .error first, .error second => .error (first ++ second)

/-- Check a list of values and keep the faults of all. -/
def all : List (Checked α) → Checked (List α)
  | [] => .ok []
  | check :: checks => (both check (all checks)).map fun (value, values) => value :: values

/-- The faults of a value that stands one step below. -/
def below (step : PathStep) (check : Checked α) : Checked α :=
  check.mapError fun faults => faults.map fun fault => { fault with path := step :: fault.path }

end Checked

end SchemaNotation
