import SchemaNotation.Text.Basic

/-!
# Tokens of a script

A script is cut into words, quoted names, strings, numbers and symbols.  Words that only
mean something together, such as the two words of a primary key, make up one token.  A
token also carries the comments that belong to it, because some of them are written out
again with the value that the token stands for.
-/

namespace SchemaNotation.Ddl

/-- The capital form of a text, for ASCII letters. -/
def capitals (text : Text) : Text :=
  text.map Char.toUpper

/-- What a token is.  A raw string is one between marks with dollar signs, and an
escaped string one whose backslashes are left to the database. -/
inductive TokenKind where
  | word
  | quotedName
  | string
  | raw
  | escaped
  | national
  | bits
  | hexadecimal
  | number
  | symbol
  deriving BEq, DecidableEq, Repr

/-- A token.  Quoted names and strings are kept without their quotes, and words that
belong together in capitals with single spaces between them. -/
structure Token where
  kind : TokenKind
  text : Text
  comments : List Text := []
  deriving BEq, DecidableEq, Repr

namespace Token

/-- Whether a token is one of the given words, in any case. -/
def isWord (words : List String) (token : Token) : Bool :=
  token.kind == .word && words.any (·.toList == capitals token.text)

/-- Whether a token reads like one of the given texts, in any case.  Quoted names count,
strings do not. -/
def reads (texts : List String) (token : Token) : Bool :=
  token.kind != .string && texts.any (·.toList == capitals token.text)

/-- Whether a token is one of the given symbols. -/
def isSymbol (symbols : List String) (token : Token) : Bool :=
  token.kind == .symbol && symbols.any (·.toList == token.text)

/-- Whether a token negates: the word for it or the exclamation mark. -/
def negates (token : Token) : Bool :=
  token.isWord ["NOT"] || token.isSymbol ["!"]

/-- Whether a token can stand where any name or value is welcome.  Symbols of one
character and the words that start a query or negate cannot. -/
def isUnreserved (token : Token) : Bool :=
  match token.kind with
  | .symbol => 1 < token.text.length
  | .word => !token.isWord ["SELECT", "NOT"]
  | _ => true

end Token

/-- The tokens between semicolons. -/
def splitStatements (tokens : List Token) : List (List Token) :=
  tokens.foldr (fun token statements =>
    if token.isSymbol [";"] then [] :: statements
    else match statements with
      | [] => [[token]]
      | statement :: statements => (token :: statement) :: statements) [[]]

end SchemaNotation.Ddl
