import SchemaNotation.Dialect
import SchemaNotation.Ddl.Token

/-!
# Cutting a script into tokens

Blanks and comments separate tokens.  A comment on the line on which a token ends belongs
to that token, and any other comment to the token after it.  A string, quoted name or
block comment that is never closed makes the whole script unreadable.
-/

namespace SchemaNotation.Ddl

/-- A string, quoted name or comment without an end. -/
structure Unterminated where
  opening : Char
  deriving BEq, DecidableEq, Repr

/-- The character that closes a quoted name, for a character that opens one. -/
def nameClosing? (dialect : Dialect) (c : Char) : Option Char :=
  if c = '"' then
    if dialect == .mysql then none else some '"'
  else if c = backtick then
    if dialect == .mysql || dialect == .sqlite then some backtick else none
  else if c = '[' then
    if dialect == .sqlserver || dialect == .sqlite then some ']' else none
  else none

/-- Whether a character opens a string. -/
def opensString (dialect : Dialect) (c : Char) : Bool :=
  c == apostrophe || (c == '"' && dialect == .mysql)

/-- What a backslash does between quotes: nothing, protect the character after it, or
stand for another character together with it. -/
inductive Backslash where
  | plain
  | protects
  | names
  deriving BEq, DecidableEq, Repr

/-- What a backslash does in a token of the given kind. -/
def backslashIn (dialect : Dialect) (kind : TokenKind) : Backslash :=
  if kind == .escaped then .protects else if dialect == .mysql then .names else .plain

/-- The characters that a backslash and a letter stand for. -/
def namedEscapes : List (Char × Char) :=
  [('a', '\x07'), ('b', '\x08'), ('f', '\x0c'), ('n', '\n'), ('r', '\r'), ('t', '\t'),
   ('v', '\x0b'), ('\\', '\\')]

/-- The characters before which a backslash that names nothing is kept. -/
def keptEscapes : Text := "0bnrtZ%_".toList

/-- What a backslash and the character after it stand for, if they belong together.  Only
a string gives up backslashes that name nothing. -/
def escape? (backslash : Backslash) (inString : Bool) (closing c : Char) : Option Text :=
  match backslash with
  | .plain => none
  | .protects =>
      if c = closing then some [c] else if c = '\\' then some ['\\', '\\'] else none
  | .names =>
      match namedEscapes.lookup c with
      | some meant => some [meant]
      | none => if inString && !keptEscapes.contains c then some [c] else none

/-- Read up to a closing character.  Two of them together stand for one, and a backslash
may escape a character.  Returns what was read and what follows the closing character. -/
def readDelimited? (backslash : Backslash) (inString : Bool) (closing : Char) :
    Text → Option (Text × Text)
  | [] => none
  | [c] => if c = closing then some ([], []) else none
  | c :: next :: text =>
      match if c == '\\' then escape? backslash inString closing next else none with
      | some meant =>
          (readDelimited? backslash inString closing text).map fun (run, rest) =>
            (meant ++ run, rest)
      | none =>
          if c ≠ closing then
            (readDelimited? backslash inString closing (next :: text)).map fun (run, rest) =>
              (c :: run, rest)
          else if next = closing then
            (readDelimited? backslash inString closing text).map fun (run, rest) =>
              (closing :: run, rest)
          else some ([], next :: text)

/-- Read up to a closing mark.  Returns what was read and what follows the mark. -/
def readUpToMark? (mark : Text) : Text → Option (Text × Text)
  | [] => none
  | c :: text =>
      match Text.after? mark (c :: text) with
      | some rest => some ([], rest)
      | none => (readUpToMark? mark text).map fun (run, rest) => (c :: run, rest)

/-- The mark that opens a raw string, for what follows its first dollar sign.  Between the
two dollar signs of a mark may be a word, but no number. -/
def rawMark? (text : Text) : Option Text :=
  let tag := text.takeWhile (· ≠ '$')
  if tag.length = text.length || tag.any isBlank || (!tag.isEmpty && tag.all Char.isDigit) then
    none
  else some ('$' :: tag ++ ['$'])

/-- Whether block comments may contain block comments. -/
def nestsComments (dialect : Dialect) : Bool :=
  dialect == .postgresql || dialect == .sqlserver

/-- Whether a plus sign may mark a block comment as a hint, and is then no part of it. -/
def marksHints (dialect : Dialect) : Bool :=
  dialect == .mysql || dialect == .oracle

/-- Whether a character ends a line. -/
def isLineBreak (c : Char) : Bool :=
  c == '\n' || c == '\r'

/-- Read the rest of a block comment that lies inside some others.  A comment that opens
right behind an opening is not seen. -/
def readBlock? (nests : Bool) : (depth : Nat) → Text → Option (Text × Text)
  | _, [] => none
  | depth, c :: text =>
      let closes := c == '*' && text.head? == some '/'
      if closes && depth == 0 then some ([], text.drop 1)
      else
        let depth := if closes then depth - 1 else depth
        match nests, text with
        | true, '/' :: '*' :: inner =>
            (readBlock? nests (depth + 1) inner).map fun (run, rest) =>
              (c :: '/' :: '*' :: run, rest)
        | _, text => (readBlock? nests depth text).map fun (run, rest) => (c :: run, rest)

/-- The characters that are symbols by themselves or open something quoted. -/
def symbolCharacters : Text := "()[]\x7b\x7d&^:,-.=><%!|+;/\\*~?@#'\"\x60".toList

/-- The symbols of more than one character, the longer ones first. -/
def longSymbols (dialect : Dialect) : List Text :=
  ((if dialect == .postgresql then ["-|-", "?&", "?|", "#-", "&<", "&>", "^@"] else []) ++
    ["->>", "<->", "<=>", "#>>", "~~*", "||", "->", "#>", "::", "<=", ">=", "<>", "!=", "==", "=>",
     ":=", "&&", "??", "~~", "~*", "@>", "<@", "@@"]).map String.toList

/-- The symbols that may be part of a word. -/
def wordSymbols : Dialect → Text
  | .sqlserver => "@$#".toList
  | .oracle => "@$#".toList
  | .mysql => "@".toList
  | _ => []

/-- Whether a character can continue a word. -/
def continuesWord (dialect : Dialect) (c : Char) : Bool :=
  !isBlank c && (!symbolCharacters.contains c || (wordSymbols dialect).contains c)

/-- The words that make up one token together. -/
def compounds (dialect : Dialect) : List (List String) :=
  [["PRIMARY", "KEY"], ["FOREIGN", "KEY"], ["CHARACTER", "SET"], ["CHARACTER", "VARYING"],
   ["CHAR", "VARYING"], ["DOUBLE", "PRECISION"], ["GROUP", "BY"], ["ORDER", "BY"],
   ["PARTITION", "BY"], ["PARTITIONED", "BY"], ["CLUSTER", "BY"], ["DISTRIBUTE", "BY"],
   ["SORT", "BY"], ["CONNECT", "BY"], ["START", "WITH"], ["GROUPING", "SETS"],
   ["SIMILAR", "TO"], ["FOR", "VERSION"], ["FOR", "TIMESTAMP"]] ++
    match dialect with
    | .mysql =>
        [["LOCK", "TABLES"], ["UNLOCK", "TABLES"], ["MEMBER", "OF"], ["SIGNED", "INTEGER"],
         ["UNSIGNED", "INTEGER"], ["SOUNDS", "LIKE"]]
    | .sqlserver =>
        [["CLUSTERED", "INDEX"], ["NONCLUSTERED", "INDEX"], ["FOR", "SYSTEM_TIME"],
         ["UPDATE", "STATISTICS"]]
    | .oracle => [["BULK", "COLLECT", "INTO"], ["ORDER", "SIBLINGS", "BY"]]
    | _ => []

/-- What follows a word at the start of a text, in any case. -/
def afterWord? : Text → Text → Option Text
  | [], text => some text
  | _ :: _, [] => none
  | expected :: word, c :: text =>
      if c.toUpper = expected then afterWord? word text else none

/-- What follows words with blanks between them, up to the end of the last one. -/
def afterWords? : List String → Text → Option Text
  | [], text => some text
  | [word], text => do
      let rest ← afterWord? word.toList text
      guard (rest.head?.all fun c => isBlank c || symbolCharacters.contains c)
      return rest
  | word :: next :: words, text => do
      let rest ← afterWord? word.toList text
      guard (rest.head?.any isBlank)
      afterWords? (next :: words) (Text.trimLeft rest)

/-- Read the words at the start of a text that make up one token together. -/
def readCompound? (dialect : Dialect) (text : Text) : Option (Text × Text) :=
  (compounds dialect).findSome? fun words =>
    (afterWords? words text).map fun rest =>
      (List.intercalate [' '] (words.map String.toList), rest)

/-- Read the rest of a number: digits, one point, one exponent, and one sign anywhere
behind the exponent's letter that a digit follows. -/
def readNumber : (point exponent sign : Bool) → Text → Text × Text
  | _, _, _, [] => ([], [])
  | point, exponent, sign, c :: text =>
      if c.isDigit then extend c (readNumber point exponent sign text)
      else if c == '.' && !point then extend c (readNumber true exponent sign text)
      else if (c == '+' || c == '-') && exponent && !sign && text.head?.any Char.isDigit then
        extend c (readNumber point exponent true text)
      else if (c == 'e' || c == 'E') && !exponent then extend c (readNumber point true sign text)
      else ([], c :: text)
where
  /-- Put a character in front of what was read. -/
  extend (c : Char) (read : Text × Text) : Text × Text :=
    (c :: read.1, read.2)

/-- What a text starts with. -/
inductive Lexeme where
  | blank
  | lineBreak
  | comment (text : Text)
  | token (token : Token)
  deriving BEq, DecidableEq, Repr

/-- The kind of a string with the given character before its quote, if there is one. -/
def markedKind? (dialect : Dialect) (mark : Char) : Option TokenKind :=
  match mark.toUpper with
  | 'N' => some .national
  | 'X' =>
      if dialect == .postgresql || dialect == .mysql || dialect == .sqlite then some .hexadecimal
      else none
  | 'B' => if dialect == .postgresql || dialect == .mysql then some .bits else none
  | 'E' => if dialect == .postgresql then some .escaped else none
  | _ => none

/-- The kind of a number that is not decimal, with the given letter behind its zero. -/
def radixKind? (dialect : Dialect) (letter : Char) : Option TokenKind :=
  match letter.toUpper with
  | 'X' => if dialect == .oracle then none else some .hexadecimal
  | 'B' => if dialect == .postgresql || dialect == .mysql then some .bits else none
  | _ => none

/-- Read a quoted token up to its closing character. -/
def readQuoted (dialect : Dialect) (kind : TokenKind) (opening closing : Char) (text : Text) :
    Except Unterminated (Lexeme × Text) :=
  match readDelimited? (backslashIn dialect kind) (kind != .quotedName) closing text with
  | some (value, rest) => .ok (.token { kind, text := value }, rest)
  | none => .error ⟨opening⟩

/-- Read a raw string behind the mark that opens it. -/
def readRaw (mark text : Text) : Except Unterminated (Lexeme × Text) :=
  match readUpToMark? mark text with
  | some (value, rest) => .ok (.token { kind := .raw, text := value }, rest)
  | none => .error ⟨'$'⟩

/-- Read a number or, where words may start with digits, such a word. -/
def readNumeral (dialect : Dialect) (c : Char) (text : Text) : Lexeme × Text :=
  let word := text.takeWhile (continuesWord dialect)
  match word with
  | letter :: digits =>
      match if c == '0' then radixKind? dialect letter else none with
      | some kind => (.token { kind, text := digits }, text.dropWhile (continuesWord dialect))
      | none => decimal
  | [] => decimal
where
  /-- Read a decimal number. -/
  decimal : Lexeme × Text :=
    let (number, rest) := readNumber false false false text
    let tail := rest.takeWhile (continuesWord dialect)
    if dialect == .mysql && !tail.isEmpty then
      (.token { kind := .word, text := c :: number ++ tail },
        rest.dropWhile (continuesWord dialect))
    else (.token { kind := .number, text := c :: number }, rest)

/-- Read a symbol or a word. -/
def readPlain (dialect : Dialect) (c : Char) (text : Text) : Lexeme × Text :=
  match (longSymbols dialect).find? fun symbol => Text.startsWith (c :: text) symbol with
  | some symbol => (.token { kind := .symbol, text := symbol }, text.drop (symbol.length - 1))
  | none =>
      match readCompound? dialect (c :: text) with
      | some (words, rest) => (.token { kind := .word, text := words }, rest)
      | none =>
          if symbolCharacters.contains c then (.token { kind := .symbol, text := [c] }, text)
          else
            (.token { kind := .word, text := c :: text.takeWhile (continuesWord dialect) },
              text.dropWhile (continuesWord dialect))

/-- Read what a text starts with. -/
def readLexeme (dialect : Dialect) (c : Char) (text : Text) :
    Except Unterminated (Lexeme × Text) :=
  if isLineBreak c then .ok (.lineBreak, text)
  else if isBlank c then .ok (.blank, text)
  else if c == '-' && text.startsWith ['-'] then .ok (readLine (text.drop 1))
  else if c == '#' && dialect == .mysql then .ok (readLine text)
  else if c == '/' && text.startsWith ['*'] then
    let opening := if marksHints dialect && text.startsWith ['*', '+'] then 2 else 1
    match readBlock? (nestsComments dialect) 0 (text.drop opening) with
    | some (comment, rest) => .ok (.comment comment, rest)
    | none => .error ⟨c⟩
  else if opensString dialect c then readQuoted dialect .string c c text
  else
    match if text.startsWith [apostrophe] then markedKind? dialect c else none with
    | some kind => readQuoted dialect kind apostrophe apostrophe (text.drop 1)
    | none =>
        match nameClosing? dialect c with
        | some closing => readQuoted dialect .quotedName c closing text
        | none =>
            match if c == '$' && dialect == .postgresql then rawMark? text else none with
            | some mark => readRaw mark (text.drop (mark.length - 1))
            | none =>
                if c.isDigit then .ok (readNumeral dialect c text)
                else .ok (readPlain dialect c text)
where
  /-- Read a comment up to the end of its line. -/
  readLine (text : Text) : Lexeme × Text :=
    (.comment (text.takeWhile (!isLineBreak ·)), text.dropWhile (!isLineBreak ·))

/-- Read a text piece by piece, in a bounded number of steps. -/
def readLexemes (dialect : Dialect) : (steps : Nat) → Text → Except Unterminated (List Lexeme)
  | 0, _ => .ok []
  | _, [] => .ok []
  | steps + 1, c :: text => do
      let (lexeme, rest) ← readLexeme dialect c text
      let lexemes ← readLexemes dialect steps rest
      return lexeme :: lexemes

/-- Tokens in reverse, and the comments that wait for the next one.  A comment belongs to
the last token as long as its line goes on. -/
structure Attachment where
  tokens : List Token := []
  waiting : List Text := []
  onLine : Bool := false
  deriving BEq, DecidableEq, Repr

namespace Attachment

/-- Give comments to the last token. -/
def giveLast (comments : List Text) : List Token → List Token
  | [] => []
  | token :: tokens => { token with comments := token.comments ++ comments } :: tokens

/-- Give the comments that wait to the last token. -/
def settle (attachment : Attachment) : Attachment :=
  { attachment with tokens := giveLast attachment.waiting attachment.tokens, waiting := [] }

/-- Take in the next piece of a text. -/
def push (attachment : Attachment) : Lexeme → Attachment
  | .blank => attachment
  | .lineBreak => { attachment with onLine := false }
  | .comment text =>
      if attachment.onLine then { attachment with tokens := giveLast [text] attachment.tokens }
      else { attachment with waiting := attachment.waiting ++ [text] }
  | .token token =>
      let attachment := if token.isSymbol [";"] then attachment.settle else attachment
      { tokens := { token with comments := attachment.waiting } :: attachment.tokens
        onLine := true }

end Attachment

/-- The tokens of a script.  Each step uses up a character, so its length bounds their
number. -/
def tokens (dialect : Dialect) (script : Text) : Except Unterminated (List Token) := do
  let lexemes ← readLexemes dialect script.length script
  let attachment : Attachment := lexemes.foldl Attachment.push {}
  return attachment.settle.tokens.reverse

end SchemaNotation.Ddl
