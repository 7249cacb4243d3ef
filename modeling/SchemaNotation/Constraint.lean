import SchemaNotation.Identifier

/-!
# Column constraints

The constraints that a column comment can state, and the words in which a comment
states them.
-/

namespace SchemaNotation

/-- A reference to a column of another table, with an optional action text. -/
structure ForeignKey where
  table : Text
  column : Text
  schema : Option Text := none
  action : Option Text := none
  deriving BEq, DecidableEq, Repr

/-- A constraint on one column. -/
inductive Constraint where
  | primaryKey
  | unique
  | index
  | autoIncrement
  | foreignKey (target : ForeignKey)
  | defaultValue (value : Text)
  | checkIn (expression : Text)
  deriving BEq, DecidableEq, Repr

/-- The reference as a comment states it.  An empty schema or action is left out. -/
def ForeignKey.describe (target : ForeignKey) : Text :=
  let qualifier := match target.schema with
    | some (c :: schema) => Identifier.render (c :: schema) ++ ['.']
    | _ => []
  let action := match target.action with
    | some (c :: action) => ", ".toList ++ c :: action
    | _ => []
  "FK -> ".toList ++ qualifier ++ Identifier.render target.table ++
    '(' :: Identifier.render target.column ++ ')' :: action

namespace Constraint

/-- The name of a constraint's kind. -/
def kindName : Constraint → Text
  | .primaryKey => "PRIMARY_KEY".toList
  | .unique => "UNIQUE".toList
  | .index => "INDEX".toList
  | .autoIncrement => "AUTO_INCREMENT".toList
  | .foreignKey _ => "FOREIGN_KEY".toList
  | .defaultValue _ => "DEFAULT".toList
  | .checkIn _ => "CHECK".toList

/-- The constraint as a comment states it. -/
def describe : Constraint → Text
  | .primaryKey => "PRIMARY KEY".toList
  | .unique => "UNIQUE".toList
  | .index => "INDEX".toList
  | .autoIncrement => "AUTO_INCREMENT".toList
  | .foreignKey target => target.describe
  | .defaultValue value => "DEFAULT ".toList ++ value
  | .checkIn expression => "CHECK IN (".toList ++ expression ++ [')']

/-- The place of a constraint among the others in a comment written for a column. -/
def rank : Constraint → Nat
  | .primaryKey => 0
  | .autoIncrement => 1
  | .unique => 2
  | .index => 3
  | .foreignKey _ => 4
  | .defaultValue _ => 5
  | .checkIn _ => 6

end Constraint

end SchemaNotation
