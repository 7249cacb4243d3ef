import SchemaNotation.TableConstraint
import SchemaNotation.Text.Integer
import SchemaNotation.Text.Quoted

/-!
# Errors in a document

A malformed line stops the reading of a document.  The error names the line, what is
wrong with it, and the text at fault.
-/

namespace SchemaNotation

/-- The categories of malformed lines. -/
inductive ErrorCode where
  | invalidInterface
  | invalidColumn
  | unclosedInterface
  | unexpectedContent
  | invalidType
  deriving BEq, DecidableEq, Repr

/-- The name of a category. -/
def ErrorCode.name : ErrorCode → Text
  | .invalidInterface => "INVALID_INTERFACE".toList
  | .invalidColumn => "INVALID_COLUMN".toList
  | .unclosedInterface => "UNCLOSED_INTERFACE".toList
  | .unexpectedContent => "UNEXPECTED_CONTENT".toList
  | .invalidType => "INVALID_TYPE".toList

/-- What is wrong with a line. -/
inductive Defect where
  | invalidInterface
  | unclosedInterface (table : Text)
  | unexpectedContent (content : Text)
  | unexpectedBodyContent (content : Text)
  | invalidColumnName (line : Text)
  | missingColon (line : Text)
  | invalidType (type line : Text)
  deriving BEq, DecidableEq, Repr

namespace Defect

/-- The category of a defect. -/
def code : Defect → ErrorCode
  | .invalidInterface => .invalidInterface
  | .unclosedInterface _ => .unclosedInterface
  | .unexpectedContent _ => .unexpectedContent
  | .unexpectedBodyContent _ => .unexpectedContent
  | .invalidColumnName _ => .invalidColumn
  | .missingColon _ => .invalidColumn
  | .invalidType _ _ => .invalidType

/-- A text between double quotes, as it stands. -/
def inDoubleQuotes (text : Text) : Text :=
  '"' :: text ++ ['"']

/-- The description of a defect. -/
def message : Defect → Text
  | .invalidInterface => "Invalid interface declaration".toList
  | .unclosedInterface table =>
      "Unclosed interface ".toList ++ Text.quoted table ++ " (missing \x60\x7d\x60)".toList
  | .unexpectedContent content => "Unexpected content: ".toList ++ inDoubleQuotes content
  | .unexpectedBodyContent content =>
      "Invalid content inside interface: ".toList ++ inDoubleQuotes content
  | .invalidColumnName line => "Invalid column name in: ".toList ++ inDoubleQuotes line
  | .missingColon line => "Expected ':' after column name in: ".toList ++ inDoubleQuotes line
  | .invalidType type line =>
      "Invalid type expression ".toList ++ inDoubleQuotes type ++ " in: ".toList ++
        inDoubleQuotes line

end Defect

/-- A malformed line: its number, what is wrong, and the text at fault. -/
structure LineError where
  line : Int
  defect : Defect
  source : Text
  deriving BEq, DecidableEq, Repr

/-- The description of an error with its line number. -/
def LineError.message (error : LineError) : Text :=
  "Line ".toList ++ Integer.render error.line ++ ": ".toList ++ error.defect.message

/-- The ways in which reading a document can fail. -/
inductive ReadError where
  | malformed (error : LineError)
  | tooLong (fault : Integer.TooLong)
  | unknownKind (fault : TableConstraint.UnknownKind)
  deriving BEq, DecidableEq, Repr

end SchemaNotation
