import SchemaNotation.Text.Integer
import SchemaNotation.Text.Letter

/-!
# Environments

The settings are read from variables with text values.  A variable that is unset or
blank leaves a setting at its default.
-/

namespace SchemaNotation

/-- The variables that are set, with their values. -/
abbrev Environment := List (Text × Text)

/-- A variable whose value cannot be read. -/
inductive SettingFault where
  | notInteger (name value : Text)
  | notBoolean (name value : Text)
  deriving BEq, DecidableEq, Repr

/-- The complaint about a variable. -/
def SettingFault.message : SettingFault → Text
  | .notInteger name value => name ++ " must be an integer, got '".toList ++ value ++ "'.".toList
  | .notBoolean name value =>
      name ++ " must be a boolean (true/false), got '".toList ++ value ++ "'.".toList

namespace Environment

/-- The value of a variable. -/
def get? (environment : Environment) (name : Text) : Option Text :=
  environment.lookup name

/-- Remove a variable. -/
def unset (environment : Environment) (name : Text) : Environment :=
  environment.filter fun entry => entry.1 != name

/-- Give a variable a value. -/
def set (environment : Environment) (name value : Text) : Environment :=
  (name, value) :: environment.unset name

/-- The value of a variable, unless it is blank. -/
def present? (environment : Environment) (name : Text) : Option Text :=
  (environment.get? name).filter fun value => !Text.isAllBlank value

/-- The integer a variable holds, if it is set. -/
def integer? (environment : Environment) (name : Text) : Except SettingFault (Option Int) :=
  match environment.present? name with
  | none => .ok none
  | some value =>
      match Integer.read? (Text.trim value) with
      | some number => .ok (some number)
      | none => .error (.notInteger name value)

/-- The words for true. -/
def trueWords : List Text := ["1", "true", "yes", "on"].map String.toList

/-- The words for false. -/
def falseWords : List Text := ["0", "false", "no", "off"].map String.toList

/-- The flag a variable holds, if it is set. -/
def flag? (environment : Environment) (name : Text) : Except SettingFault (Option Bool) :=
  match environment.present? name with
  | none => .ok none
  | some value =>
      let word := Text.lower (Text.trim value)
      if trueWords.contains word then .ok (some true)
      else if falseWords.contains word then .ok (some false)
      else .error (.notBoolean name value)

end Environment

end SchemaNotation
