import SchemaNotation.Text.Integer
import SchemaNotation.Text.Letter

/-!
# Declared types

A declared type such as `NUMBER(10, 2)` is a name with a parameter list, which may
stand inside the name, and an optional array mark.
-/

namespace SchemaNotation

/-- The name, length and scale of a declared type. -/
structure DeclaredType where
  name : Text
  length : Option Int := none
  scale : Option Int := none
  deriving BEq, DecidableEq, Repr

namespace DeclaredType

/-- The value of one parameter.  The greatest possible length counts as `-1`. -/
def parameter? (text : Text) : Option Int :=
  if Text.lower text = "max".toList then some (-1) else Integer.read? text

/-- The first parenthesized list: the text before it, its content, and the text behind
it. -/
def parenthesized? (text : Text) : Option (Text × Text × Text) :=
  match text.dropWhile (· != '(') with
  | [] => none
  | _ :: rest =>
      match rest.dropWhile (· != ')') with
      | [] => none
      | _ :: after => some (text.takeWhile (· != '('), rest.takeWhile (· != ')'), after)

/-- Split a declared type.  The array mark stays at the end of the name. -/
def read (declared : Text) : DeclaredType :=
  let declared := Text.trim declared
  let (text, mark) := match Text.before? "[]".toList declared with
    | some element => (Text.trimRight element, "[]".toList)
    | none => (declared, [])
  let nameOf (text : Text) : Text := List.intercalate [' '] text.words ++ mark
  match parenthesized? text with
  | none => { name := nameOf text }
  | some (before, list, after) =>
      let parameters := (Text.splitOn ',' list).map Text.trim
      { name := nameOf (before ++ ' ' :: after)
        length := parameters[0]?.bind parameter?
        scale := parameters[1]?.bind parameter? }

end DeclaredType

end SchemaNotation
