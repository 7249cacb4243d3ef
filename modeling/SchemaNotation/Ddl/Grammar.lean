import SchemaNotation.Ddl.Expression
import SchemaNotation.Ddl.Keyword
import SchemaNotation.Ddl.Reader

/-!
# Reading types and expressions

Expressions are read by levels of how tightly their operators bind.  What stands inside
parentheses, arguments or behind a sign is read one nesting deeper, so that a bound on
the nesting makes the readers total.  Whatever is left behind an expression is left to
its surroundings.
-/

namespace SchemaNotation.Ddl

open Reader

/-- How tightly operators bind, from the loosest level to single operands. -/
inductive Level where
  | disjunction
  | conjunction
  | equality
  | comparison
  | range
  | bitwise
  | term
  | factor
  | power
  | unary
  | operand
  deriving BEq, DecidableEq, Repr

/-- The dialect of a script, and the reader for what lies one nesting deeper. -/
structure Grammar where
  dialect : Dialect
  inner : Level → Reader (Option Expression)

/-- Let a new value claim the comments of the last token. -/
def claim (value : Expression) : Reader Expression := do
  return value.annotate (← claimComments)

namespace Grammar

variable (grammar : Grammar)

/-! ## Names and literals -/

/-- Read the mark of a value that is filled in later, with the name it may have. -/
def readPlaceholder : Reader (Option Expression) := attempt do
  if ← skipSymbol ["?"] then return some (← claim (.placeholder ['?'] []))
  match ← readIf? (·.isSymbol [":", "@", "@@"]) with
  | none => return none
  | some mark =>
      let test := fun (token : Token) =>
        if mark.text = [':'] then token.kind == .word || token.kind == .number
        else token.isUnreserved
      match ← readIf? test with
      | none => return none
      | some token => return some (← claim (.placeholder mark.text token.text))

/-- Read a name.  Where any token is welcome, keywords, strings and numbers are names. -/
def readName (anyToken : Bool) : Reader (Option Expression) := do
  if grammar.dialect == .sqlserver then
    if ← skipSymbol ["#"] then let _ ← skipSymbol ["#"]
  if let some value ← readPlaceholder then return some value
  let found ← readIf? fun token =>
    token.isName grammar.dialect || (anyToken && token.isUnreserved)
  match found with
  | none => return none
  | some token =>
      let isQuoted := token.kind == .quotedName || token.kind == .string
      return some (← claim (.identifier { text := token.text, isQuoted }))

/-- Read a string, or several that are written together as one. -/
def readString : Reader (Option Expression) := do
  match ← readIf? (·.kind == .string) with
  | none => return none
  | some token =>
      let first ← claim (.string token.text)
      let more ← readMany (readIf? (·.kind == .string)) (← remaining)
      if more.isEmpty then return some first
      else
        let texts := more.map fun token => Expression.string token.text
        return some (← claim (.call { text := "CONCAT".toList } (first :: texts)))

/-- The value that a single token stands for. -/
def literal? (token : Token) : Option Expression :=
  match token.kind with
  | .number => some (.number token.text)
  | .national | .raw | .escaped | .bits | .hexadecimal => some (.marked token.kind token.text)
  | .word =>
      if token.isWord ["NULL"] then some .null
      else if token.isWord ["TRUE"] then some (.boolean true)
      else if token.isWord ["FALSE"] then some (.boolean false)
      else none
  | .symbol => if token.isSymbol ["*"] then some .star else none
  | _ => none

/-- Read a value of a single token. -/
def readLiteral : Reader (Option Expression) := do
  match ← readIf? fun token => (literal? token).isSome with
  | none => return none
  | some token => return some (← claim ((literal? token).getD .missing))

/-- Read a number that starts with its point. -/
def readFraction : Reader (Option Expression) := do
  let number? ← peekSecond?
  match number?.filter (·.kind == .number) with
  | none => return none
  | some number =>
      if ← skipAll [(·.isSymbol ["."]), (·.kind == .number)] then
        return some (.number ("0.".toList ++ number.text))
      else return none

/-! ## Parentheses -/

/-- Give an expression the name that may follow it. -/
def readAlias (value : Option Expression) : Reader (Option Expression) := do
  match value with
  | none => return none
  | some value =>
      let stated ← skipWord ["AS"]
      let name ← if stated then grammar.readName true else
        if ← sees (fun token => token.kind == .quotedName || token.isName grammar.dialect) then
          grammar.readName false
        else pure none
      match name with
      | none => return some value
      | some name => return some (.sequence [value, .word " AS ".toList, name])

/-- Read the tokens of a query up to the parenthesis that closes it. -/
def readQuery : (steps depth : Nat) → Reader (List Text)
  | 0, _ => pure []
  | steps + 1, depth => do
      if depth = 0 ∧ (← sees (·.isSymbol [")"])) then return []
      match ← readIf? fun _ => true with
      | none => return []
      | some token =>
          let depth := if token.isSymbol ["("] then depth + 1
            else if token.isSymbol [")"] then depth - 1 else depth
          return token.text :: (← readQuery steps depth)

/-- Read a value in parentheses, several of them, or a query. -/
def readParenthesized : Reader (Option Expression) := do
  match ← readIf? (·.isSymbol ["("]) with
  | none => return none
  | some opening =>
      let value ← if ← sees (·.isWord ["SELECT", "WITH"]) then do
          let words ← readQuery (← remaining) 0
          claim (.parenthesized (.word (List.intercalate [' '] words)))
        else do
          let values ← readAnnotated Expression.annotate do
            grammar.readAlias (← grammar.inner .disjunction)
          match values with
          | [value] => claim (.parenthesized value)
          | values => claim (.list ['('] [')'] values)
      let value := value.annotate opening.comments
      if ← skipSymbol [")"] then return some (← claim value)
      else return some value

/-- The character sets of MySQL, each of which may be stated in front of a string. -/
def characterSets : List String :=
  ["armscii8", "ascii", "big5", "binary", "cp1250", "cp1251", "cp1256", "cp1257", "cp850",
   "cp852", "cp866", "cp932", "dec8", "eucjpms", "euckr", "gb18030", "gb2312", "gbk", "geostd8",
   "greek", "hebrew", "hp8", "keybcs2", "koi8r", "koi8u", "latin1", "latin2", "latin5", "latin7",
   "macce", "macroman", "sjis", "swe7", "tis620", "ucs2", "ujis", "utf16", "utf16le", "utf32",
   "utf8", "utf8mb3", "utf8mb4"]

/-- Whether a token states the character set of what follows. -/
def statesCharacterSet (token : Token) : Bool :=
  grammar.dialect == .mysql &&
    token.isWord (characterSets.map fun name => "_" ++ name.toUpper)

/-- Read a literal with its character set in front of it.  Without a literal, the
character set is a name. -/
def readIntroduced : Reader (Option Expression) := do
  match ← readIf? grammar.statesCharacterSet with
  | none => return none
  | some token =>
      match ← firstOf [readString, readLiteral, readFraction] with
      | some value => return some (← claim (.sequence [.word (token.text ++ [' ']), value]))
      | none => return some (← claim (.identifier { text := token.text }))

/-- Read a literal or something in parentheses. -/
def readPrimary : Reader (Option Expression) :=
  firstOf [readString, readLiteral, grammar.readIntroduced, readFraction,
    grammar.readParenthesized]

/-! ## Types -/

/-- What a type starts with. -/
inductive TypeHead where
  | known (kind : String)
  | custom (name : Text)
  deriving BEq, DecidableEq, Repr

/-- The text of a name with its comments. -/
def renderName (value : Expression) : Text :=
  value.render grammar.dialect

/-- Read the further parts of the name of a type, in a bounded number of steps. -/
def readTypePath : (steps : Nat) → Text → Reader Text
  | 0, name => pure name
  | steps + 1, name => do
      if ← skipSymbol ["."] then
        let part ← grammar.readName true
        let text := match grammar.dialect, part with
          | .postgresql, some part => grammar.renderName part
          | _, some part => part.leafText
          | _, none => []
        readTypePath steps (name ++ '.' :: text)
      else return name

/-- Read what a type starts with.  A quoted name may still be the name of a known type. -/
def readTypeHead (mayBeCustom : Bool) : Reader (Option TypeHead) := do
  match ← readIf? fun token => (token.typeKind? grammar.dialect).isSome with
  | some token => return (token.typeKind? grammar.dialect).map .known
  | none =>
      if !mayBeCustom then return none
      match ← readIf? fun token => token.kind == .quotedName || token.isPlain grammar.dialect with
      | none => return none
      | some token =>
          match typeKind? grammar.dialect (capitals token.text), grammar.dialect with
          | some kind, _ => return some (.known kind)
          | none, .mysql => return none
          | none, .postgresql =>
              let name : Name := { text := token.text, isQuoted := token.kind == .quotedName }
              let name ← claim (.identifier name)
              return some (.custom (← grammar.readTypePath (← remaining) (grammar.renderName name)))
          | none, _ => return some (.custom (← grammar.readTypePath (← remaining) token.text))

/-- Read one parameter of a type: a value and perhaps a unit, which only Oracle writes. -/
def readTypeParameter : Reader (Option Text) := do
  match ← grammar.inner .operand with
  | none => return none
  | some value =>
      let value : Expression := match value.split.1 with
        | .column [] name => .word (capitals name.text)
        | _ => value
      let written := value.render grammar.dialect
      match ← readIf? Token.isUnreserved with
      | none => return some written
      | some unit =>
          let unit := unit.text ++ renderComments (← claimComments)
          if grammar.dialect == .oracle then return some (written ++ ' ' :: unit)
          else return some written

/-- Read the parameters of a type behind the opening parenthesis. -/
def readTypeParameters (head : TypeHead) : Reader (List Text) := do
  match head with
  | .known "ENUM" | .known "SET" =>
      let values ← readAnnotated Expression.annotate (grammar.inner .equality)
      return values.map (·.render grammar.dialect)
  | _ => readSeparated grammar.readTypeParameter

/-- Read the time zone that may follow a type, which decides its kind. -/
def readTimeZone? (kind : String) : Reader (Option String) := do
  if !takesTimeZone kind then return none
  if ← skipPhrase ["WITH", "TIME", "ZONE"] then
    return some (if kind == "TIME" || kind == "TIMETZ" then "TIMETZ" else "TIMESTAMPTZ")
  if ← skipPhrase ["WITH", "LOCAL", "TIME", "ZONE"] then return some "TIMESTAMPLTZ"
  if ← skipPhrase ["WITHOUT", "TIME", "ZONE"] then return some kind
  return none

/-- The words that name a unit of time or a part of a date. -/
def timeUnits : List String :=
  ["YEAR", "YEARS", "Y", "YY", "YYY", "YYYY", "YR", "YRS", "QUARTER", "QUARTERS", "Q", "QTR",
   "QTRS", "MONTH", "MONTHS", "MM", "MON", "MONS", "WEEK", "W", "WK", "WEEKOFYEAR", "WOY", "WY",
   "WEEKISO", "WEEK_ISO", "WEEKOFYEARISO", "WEEKOFYEAR_ISO", "DAY", "DAYS", "D", "DD",
   "DAYOFMONTH", "DAYOFWEEK", "WEEKDAY", "DOW", "DW", "DAYOFWEEKISO", "DAYOFWEEK_ISO",
   "WEEKDAY_ISO", "DOW_ISO", "DW_ISO", "DAYOFYEAR", "DOY", "DY", "HOUR", "HOURS", "H", "HH", "HR",
   "HRS", "MINUTE", "MINUTES", "M", "MI", "MIN", "MINS", "SECOND", "SECONDS", "S", "SEC", "SECS",
   "MILLISECOND", "MILLISECONDS", "MILLISEC", "MILLISECS", "MILLISECON", "MS", "MSEC", "MSECS",
   "MSECOND", "MSECONDS", "MICROSECOND", "MICROSECONDS", "MICROSEC", "MICROSECS", "US", "USEC",
   "USECS", "USECOND", "USECONDS", "NANOSECOND", "NANOSEC", "NANOSECS", "NS", "NSEC", "NSECOND",
   "NSECONDS", "EPOCH", "EPOCH_SECOND", "EPOCH_SECONDS", "EPOCH_MILLISECOND",
   "EPOCH_MILLISECONDS", "EPOCH_MICROSECOND", "EPOCH_MICROSECONDS", "EPOCH_NANOSECOND",
   "EPOCH_NANOSECONDS", "TIMEZONE_HOUR", "TZH", "TIMEZONE_MINUTE", "TZM", "DECADE", "DECADES",
   "DEC", "DECS", "CENTURY", "CENTURIES", "C", "CENT", "CENTS", "MILLENNIUM", "MILLENIUM",
   "MILLENIA", "MIL", "MILS"]

/-- Read a unit of time. -/
def readUnit : Reader (Option Text) := do
  match ← readIf? (·.isPlain grammar.dialect) with
  | none => return none
  | some token => return some (capitals token.text ++ renderComments (← claimComments))

/-- Read the units of an interval type.  Any word may follow `TO`, but the first one has
to name a unit, so that it is not taken for the start of a clause. -/
def readIntervalUnits : Reader Text := do
  if !(← sees (·.reads timeUnits)) then return []
  match ← grammar.readUnit with
  | none => return []
  | some first =>
      if ← skipText ["TO"] then
        let second ← grammar.readUnit
        return ' ' :: first ++ " TO".toList ++ (second.map (' ' :: ·)).getD []
      else return ' ' :: first

/-- Read the array marks behind a type, in a bounded number of steps.  Outside of a
definition, bounds are no part of a type.  The word for an array may stand for the mark,
and empty brackets right behind that word say nothing more. -/
def readArrays (inDefinition : Bool) : (steps : Nat) → (marked behindWord : Bool) → TypeName →
    Reader TypeName
  | 0, _, _, type => pure type
  | steps + 1, marked, behindWord, type => do
      let input ← get
      let opened ← skipSymbol ["["]
      if input.tokens.isEmpty || (!opened && !marked) then return type
      if ← skipWhen behindWord (skipSymbol ["]"]) then return type
      let bounds ← readSeparated (grammar.inner .disjunction)
      if !bounds.isEmpty && !inDefinition then
        set input
        return type
      let _ ← skipSymbol ["]"]
      readArrays inDefinition steps false false
        (.array type (bounds.map (·.render grammar.dialect)))

/-- The kinds of PostgreSQL's object identifiers, which take nothing behind them. -/
def isObjectIdentifier (kind : String) : Bool :=
  ["OID", "REGCLASS", "REGPROC", "REGTYPE", "REGROLE", "REGNAMESPACE", "REGCONFIG"].contains kind

/-- Read the type of the given kind behind its parameters. -/
def readKnownType (kind : String) (parameters : List Text) : Reader TypeName := do
  if kind == "INTERVAL" then
    let units ← grammar.readIntervalUnits
    let comments ← claimComments
    let type := TypeName.interval units parameters
    return if comments.isEmpty then type else .commented type comments
  if ← skipText ["UNSIGNED"] then return .known (unsignedKind kind) parameters
  return .known kind parameters

/-- Read a type.  In an expression, parameters may as well be the arguments of a function,
unless a string follows. -/
def readType (inDefinition inExpression : Bool) : Reader (Option TypeName) := attempt do
  let some head ← grammar.readTypeHead (!inExpression) | return none
  match head with
  | .known kind =>
      if isObjectIdentifier kind then
        let comments ← claimComments
        let type := TypeName.known kind []
        return some (if comments.isEmpty then type else .commented type comments)
  | .custom _ => pure ()
  let called ← skipSymbol ["("]
  let parameters ← if called then grammar.readTypeParameters head else pure []
  if called then
    if !(← skipSymbol [")"]) then return none
  let zoned ← match head with
    | .known kind => readTimeZone? kind
    | .custom _ => pure none
  if inExpression && called && zoned.isNone && !(← sees (·.kind == .string)) then return none
  let type ← match head, zoned with
    | _, some kind => pure (.known kind parameters)
    | .known kind, none => grammar.readKnownType kind parameters
    | .custom name, none => pure (.custom name parameters)
  let marked ← skipWord ["ARRAY"]
  let behindWord := marked || (head == .known "ARRAY" && !called)
  return some (← grammar.readArrays inDefinition (← remaining) marked behindWord type)

/-! ## Functions -/

/-- Read the branches of a case distinction, in a bounded number of steps. -/
def readBranches : (steps : Nat) → Reader (List Expression)
  | 0 => pure []
  | steps + 1 => do
      if ← skipWord ["WHEN"] then
        let condition ← grammar.inner .disjunction
        let _ ← skipWord ["THEN"]
        let value ← grammar.inner .disjunction
        let branch : Expression := .sequence [.word " WHEN ".toList, condition.getD .missing,
          .word " THEN ".toList, value.getD .missing]
        return branch :: (← readBranches steps)
      else return []

/-- Read a case distinction behind its first word. -/
def readCase (comments : List Text) : Reader Expression := do
  let subject ← grammar.inner .disjunction
  let branches ← grammar.readBranches (← remaining)
  let otherwise ← if ← skipWord ["ELSE"] then grammar.inner .disjunction else pure none
  let _ ← skipWord ["END"]
  let parts : List Expression :=
    .word "CASE".toList ::
      (subject.map fun value => Expression.sequence [.word [' '], value]).toList ++ branches ++
      (otherwise.map fun value => Expression.sequence [.word " ELSE ".toList, value]).toList ++
      [.word " END".toList]
  return Expression.annotate comments (.sequence parts)

/-- Read one argument of a function.  Only an unknown function names its arguments. -/
def readArgument (known : Bool) : Reader (Option Expression) := do
  if ← sees (·.isWord ["SELECT", "WITH"]) then
    let words ← readQuery (← remaining) 0
    return some (.word (List.intercalate [' '] words))
  let distinct ← skipWord ["DISTINCT"]
  let value ← grammar.inner .disjunction
  let value ← match ← readIf? (·.isSymbol ["=>", ":="]) with
    | none => pure value
    | some arrow =>
        let stated ← grammar.inner .disjunction
        pure (some (.binary arrow.text [] (value.getD .missing) (stated.getD .missing)))
  let value ← if known then pure value else grammar.readAlias value
  return if distinct then value.map fun value => .sequence [.word "DISTINCT ".toList, value]
    else value

/-- Whether a function is one that every dialect knows. -/
def isKnownFunction (key : Text) : Bool :=
  (valueFunctions ++ constants grammar.dialect ++
    (functionSynonyms grammar.dialect).map Prod.fst).any (·.toList == key)

/-- Read a cast behind its opening parenthesis. -/
def readCast (safe : Bool) : Reader Expression := do
  let value := (← grammar.inner .disjunction).getD .missing
  let _ ← skipWord ["AS"]
  let type := (← grammar.readType false false).getD (.custom [] [])
  if safe then
    claim (.sequence [.word "TRY_CAST(".toList, value,
      .word (" AS ".toList ++ type.render grammar.dialect ++ [')'])])
  else claim (.cast value type)

/-- Read the arguments of a part of a text.  The start and the length may stand behind
words of their own. -/
def readSubstring (function : Name) : Reader Expression := do
  let values ← readAnnotated Expression.annotate (grammar.inner .bitwise)
  let start ← if ← skipWord ["FROM"] then grammar.inner .bitwise else pure none
  let length ← if ← skipWord ["FOR"] then grammar.inner .bitwise else pure none
  let start := if start.isNone && length.isSome then some (.number ['1']) else start
  return .call function (values ++ start.toList ++ length.toList)

/-- The function that trims one side of a text, or both. -/
def trimFunction (side : Option Text) : Text :=
  if side = some "LEADING".toList then "LTRIM".toList
  else if side = some "TRAILING".toList then "RTRIM".toList
  else "TRIM".toList

/-- Read the arguments of a trimmed text: the text, the side and the characters. -/
def readTrim : Reader Expression := do
  let side ← readIf? (·.reads ["LEADING", "TRAILING", "BOTH"])
  let side := side.map fun token => capitals token.text
  let first ← grammar.inner .bitwise
  let (value, characters) ← if ← skipWord ["FROM"] then do
      pure ((← grammar.inner .bitwise).getD .missing, first)
    else if ← skipSymbol [","] then do
      pure (first.getD .missing, ← grammar.inner .bitwise)
    else pure (first.getD .missing, none)
  match characters with
  | none => claim (.call { text := trimFunction side } [value])
  | some characters =>
      if grammar.dialect == .sqlite then
        claim (.call { text := trimFunction side } [value, characters])
      else
        let side := (side.map (· ++ [' '])).getD []
        claim (.sequence [.word ("TRIM(".toList ++ side), characters, .word " FROM ".toList, value,
          .word [')']])

/-- Read the arguments of a text with a part put in place of another. -/
def readOverlay : Reader Expression := do
  let part := fun (word : String) => (do
    if ← skip fun token => token.isSymbol [","] || token.reads [word] then
      let value ← grammar.inner .bitwise
      return [.word (' ' :: word.toList ++ [' ']), value.getD .missing]
    else return [] : Reader (List Expression))
  let value ← grammar.inner .bitwise
  let placed ← part "PLACING"
  let start ← part "FROM"
  let length ← part "FOR"
  claim (.sequence (.word "OVERLAY(".toList :: value.getD .missing :: placed ++ start ++ length ++
    [.word [')']]))

/-- Read the arguments of a function behind the opening parenthesis. -/
def readArguments (function : Name) (anonymous : Bool) : Reader Expression := do
  let key := capitals function.text
  if !anonymous && key == "CAST".toList then grammar.readCast false
  else if !anonymous && key == "TRY_CAST".toList then grammar.readCast true
  else if !anonymous && key == "EXTRACT".toList then
    let unit := ((← readIf? Token.isUnreserved).map Token.text).getD []
    let _ ← skipWord ["FROM"]
    let value := (← grammar.inner .bitwise).getD .missing
    claim (.sequence [.word ("EXTRACT(".toList ++ capitals unit ++ " FROM ".toList), value,
      .word [')']])
  else if !anonymous && key == "SUBSTRING".toList then grammar.readSubstring function
  else if !anonymous && key == "TRIM".toList then grammar.readTrim
  else if !anonymous && key == "OVERLAY".toList then grammar.readOverlay
  else if !anonymous && key == "CONVERT".toList && grammar.dialect == .sqlserver then
    let type := (← grammar.readType false false).getD (.custom [] [])
    let _ ← skipSymbol [","]
    let values ← readAnnotated Expression.annotate (grammar.inner .disjunction)
    return .call function (.word (type.render grammar.dialect) :: values)
  else
    let known := !anonymous && grammar.isKnownFunction key
    let values ← readAnnotated Expression.annotate (grammar.readArgument known)
    if known then return .call function values else claim (.call function values)

/-- Read the next value of a sequence. -/
def readNextValue : Reader (Option Expression) := do
  if ← skipPhrase ["NEXT", "VALUE", "FOR"] then
    let sequence ← grammar.inner .operand
    return some (← claim (.sequence [.word "NEXT VALUE FOR ".toList, sequence.getD .missing]))
  else return none

/-- Read a call of a function or a function without parentheses. -/
def readFunction (anyToken anonymous : Bool) : Reader (Option Expression) := do
  let some token ← peek? | return none
  if token.isWord ["CASE"] then
    let _ ← skipWord ["CASE"]
    return some (← grammar.readCase token.comments)
  if token.isWord ["NEXT"] then
    if let some value ← grammar.readNextValue then return some value
  if !(← peekSecond?).any (·.isSymbol ["("]) then
    match (constants grammar.dialect).find? fun name => token.isWord [name] with
    | none => return none
    | some name =>
        let _ ← skip fun _ => true
        return some (← claim (.constant name))
  if !(if anyToken then token.isUnreserved else token.isFunctionName grammar.dialect) then
    return none
  let _ ← skip fun _ => true
  let _ ← skip fun _ => true
  let function : Name := { text := token.text, isQuoted := token.kind == .quotedName }
  let value ← grammar.readArguments function anonymous
  let value := value.annotate token.comments
  if ← skipSymbol [")"] then return some (← claim value)
  else return some value

/-! ## Operands -/

/-- Read a literal, a function or a name. -/
def readField (anyToken : Bool) : Reader (Option Expression) :=
  firstOf [grammar.readPrimary, grammar.readFunction anyToken false, grammar.readName anyToken]

/-- Read a field behind a point, where functions are taken as they are. -/
def readMember : Reader (Option Expression) :=
  firstOf [grammar.readFunction true true, grammar.readPrimary, grammar.readName true]

/-- A name that stands by itself is a column. -/
def asColumn (value : Expression) : Expression :=
  match value.split with
  | (.identifier name, comments) => Expression.annotate comments (.column [] name)
  | _ => value

/-- Take a member of a value.  A function keeps its case behind a point. -/
def takeMember (value : Expression) (member : Option Expression) : Expression :=
  let (owner, comments) := value.split
  let (part, more) := (member.getD .missing).split
  let joined : Expression := match owner, part with
    | .column path name, .identifier part => .column (path ++ [name]) part
    | .column [] name, part => .member (.identifier name) part
    | owner, part => .member owner part
  joined.annotate (comments ++ more)

/-- Read one index between brackets, or a range of them. -/
def readSubscript : Reader (Option Expression) := do
  let first ← grammar.inner .disjunction
  if ← skipSymbol [":"] then
    let last ← grammar.inner .unary
    return some (.sequence [first.getD .missing, .word [':'], last.getD .missing])
  else return first

/-- Read what is taken of a value by brackets. -/
def readBrackets (value : Expression) : Reader (Option Expression) := do
  if ← skipSymbol ["["] then
    let values ← readAnnotated Expression.annotate grammar.readSubscript
    let _ ← skipSymbol ["]"]
    let value : Expression := match value.split.1 with
      | .column [] name =>
          if capitals name.text = "ARRAY".toList then
            if grammar.dialect == .postgresql then .list "ARRAY[".toList [']'] values
            else .call name values
          else .sequence [value, .list ['['] [']'] values]
      | _ => .sequence [value, .list ['['] [']'] values]
    return some (← claim value)
  else return none

/-- Read an operation on a value: brackets, a member, a cast or an arrow. -/
def readOperation (value : Expression) : Reader (Option Expression) := do
  if let some value ← grammar.readBrackets value then return some value
  if ← skipSymbol ["."] then return some (takeMember value (← grammar.readMember))
  if ← skipSymbol ["::"] then
    let type := (← grammar.readType false false).getD (.custom [] [])
    return some (← claim (.cast value type))
  match ← readIf? (·.isSymbol ["->", "->>", "#>", "#>>", "?"]) with
  | none => return none
  | some arrow =>
      let field ← firstOf [grammar.readField false, grammar.inner .bitwise]
      return some (← claim (.binary arrow.text [] value ((field.map asColumn).getD .missing)))

/-- Read the operations on a value, in a bounded number of steps. -/
def readOperations : (steps : Nat) → Expression → Reader Expression
  | 0, value => pure value
  | steps + 1, value => do
      match ← grammar.readOperation value with
      | none => return value
      | some value => readOperations steps value

/-- Read a column or another field with the operations on it. -/
def readColumn : Reader (Option Expression) := do
  match ← grammar.readField false with
  | none => return none
  | some value => return some (← grammar.readOperations (← remaining) (asColumn value))

/-- The number and unit at the start of a text. -/
def intervalPart? (text : Text) : Option (Text × Text × Text) :=
  let text := Text.trimLeft text
  let (sign, text) := match text with
    | '-' :: text => (['-'], text)
    | text => ([], text)
  let (digits, rest) := text.span Char.isDigit
  let (places, rest) := match rest with
    | '.' :: c :: tail =>
        if c.isDigit then ('.' :: (c :: tail).takeWhile Char.isDigit,
          (c :: tail).dropWhile Char.isDigit)
        else ([], rest)
    | rest => ([], rest)
  let (unit, rest) := (Text.trimLeft rest).span Char.isAlpha
  if digits.isEmpty || unit.isEmpty then none else some (sign ++ digits ++ places, unit, rest)

/-- The numbers with units that occur in a text, in a bounded number of steps. -/
def intervalParts : (steps : Nat) → Text → List (Text × Text)
  | 0, _ => []
  | _, [] => []
  | steps + 1, c :: text =>
      match intervalPart? (c :: text) with
      | some (number, unit, rest) => (number, unit) :: intervalParts steps rest
      | none => intervalParts steps text

/-- Read an interval of time.  A text may hold its unit. -/
def readInterval : Reader (Option Expression) := attempt do
  if !(← skipWord ["INTERVAL"]) then return none
  let some value ← (if ← sees (·.kind == .string) then readString else grammar.inner .term)
    | return none
  if let (.column [] { isQuoted := false, .. }, _) := value.split then
    if ← sees (!·.reads timeUnits) then return none
  let input ← get
  let unit ← if ← sees (·.isWord ["AS"]) then pure none
    else readIf? Token.isUnreserved
  let unit := unit.map fun token => capitals token.text
  match value.split.1 with
  | .string text =>
      match intervalParts text.length text with
      | [] => return some (← claim (.interval value (unit.getD [])))
      | [(number, unit)] =>
          set input
          return some (← claim (.interval (.string number) (capitals unit)))
      | _ =>
          set input
          return some (← claim (.interval value []))
  | .number text => return some (← claim (.interval (.string text) (unit.getD [])))
  | _ => return some (← claim (.interval value (unit.getD [])))

/-- A literal with its type in front.  Oracle writes a date as a function. -/
def typedLiteral (type : TypeName) (value : Expression) : Expression :=
  if grammar.dialect == .oracle && type.kind? == some "DATE" then
    .call { text := "TO_DATE".toList } [value, .string "YYYY-MM-DD".toList]
  else .cast value type

/-- Read a literal with its type in front. -/
def readTypedLiteral : Reader (Option Expression) := attempt do
  let some type ← grammar.readType false true | return none
  match ← grammar.readPrimary with
  | none => return none
  | some value =>
      match value.split.1 with
      | .string _ | .number _ =>
          let value ← grammar.readOperations (← remaining) value
          return some (← claim (grammar.typedLiteral type value))
      | _ => return none

/-- Read a value that MySQL takes for bytes, with the word for it in front. -/
def readBytes : Reader (Option Expression) := do
  let called := (← peekSecond?).any (·.isSymbol ["("])
  if ← skipWhen (grammar.dialect == .mysql && !called) (skipWord ["BINARY"]) then
    let value ← grammar.readColumn
    return some (← claim (.cast (value.getD .missing) (.known "BINARY" [])))
  else return none

/-- Read an operand: an interval, a typed literal or a column. -/
def readOperand : Reader (Option Expression) := do
  if let some value ← grammar.readBytes then return some value
  match ← grammar.readInterval with
  | some value => return some (← grammar.readOperations (← remaining) value)
  | none => firstOf [grammar.readTypedLiteral, grammar.readColumn]

/-! ## Operators -/

/-- Read the time zones behind a value, in a bounded number of steps. -/
def readZones : (steps : Nat) → Option Expression → Reader (Option Expression)
  | 0, value => pure value
  | steps + 1, value => do
      if ← skipPhrase ["AT", "TIME", "ZONE"] then
        let zone ← grammar.inner .unary
        let joined ← claim
          (.binary "AT TIME ZONE".toList [] (value.getD .missing) (zone.getD .missing))
        readZones steps (some joined)
      else return value

/-- Read a sign, a negation or an operand. -/
def readUnary : Reader (Option Expression) := do
  if ← skipSymbol ["+"] then grammar.inner .unary
  else if ← skipSymbol ["-"] then
    return some (← claim (.unary ['-'] ((← grammar.inner .unary).getD .missing)))
  else if ← skip Token.negates then
    return some (← claim (.unary "NOT ".toList ((← grammar.inner .equality).getD .missing)))
  else if ← skipWhen (grammar.dialect != .postgresql) (skipSymbol ["~"]) then
    return some (← claim (.unary ['~'] ((← grammar.inner .unary).getD .missing)))
  else
    let value ← grammar.readOperand
    grammar.readZones (← remaining) value

/-- The operators of a level, each with how it is written. -/
def operators : Level → List (String × String)
  | .disjunction => ("OR", "OR") :: if grammar.dialect == .mysql then [("||", "OR")] else []
  | .conjunction =>
      ("AND", "AND") :: if grammar.dialect == .mysql then [("&&", "AND"), ("XOR", "XOR")] else []
  | .equality => [("=", "="), ("==", "="), ("<>", "<>"), ("!=", "<>"), ("<=>", "<=>")]
  | .comparison => [("<", "<"), ("<=", "<="), (">", ">"), (">=", ">=")]
  | .bitwise =>
      [("&", "&"), ("|", "|")] ++
        match grammar.dialect with
        | .postgresql => [("#", "#"), ("||", "||")]
        | .mysql => [("^", "^")]
        | .sqlite => [("^", "^")]
        | _ => [("^", "^"), ("||", "||")]
  | .term =>
      [("-", "-"), ("+", "+"), ("%", "%"), ("COLLATE", "COLLATE")] ++
        if grammar.dialect == .mysql then [("MOD", "%")] else []
  | .factor => [("*", "*"), ("/", "/"), ("DIV", "DIV"), ("<->", "<->")]
  | .power =>
      match grammar.dialect with
      | .postgresql => [("^", "^")]
      | .sqlite => [("||", "||")]
      | _ => []
  | _ => []

/-- Read an operator of a level.  The comments of bitwise operators are lost. -/
def readOperator (level : Level) : Reader (Option (Text × List Text)) := do
  if level == .bitwise then
    if ← skipAll [(·.isSymbol ["<"]), (·.isSymbol ["<"])] then return some ("<<".toList, [])
    if ← skipAll [(·.isSymbol [">"]), (·.isSymbol [">"])] then return some (">>".toList, [])
  let operators := grammar.operators level
  let names := operators.map Prod.fst
  match ← readIf? fun token => token.isWord names || token.isSymbol names with
  | none => return none
  | some token =>
      let written := (operators.lookup (String.ofList (capitals token.text))).getD ""
      return some (written.toList, if level == .bitwise then [] else token.comments)

/-- The right operand of an operator.  A collation is a word unless it is quoted. -/
def rightOperand (operator : Text) (value : Option Expression) : Expression :=
  match value with
  | none => .missing
  | some value =>
      match value.split.1 with
      | .column [] name =>
          if operator = "COLLATE".toList then
            if name.isQuoted then .identifier name else .word name.text
          else value
      | _ => value

/-- Read the operators of a level with their right operands, in a bounded number of
steps. -/
def readChain (level : Level) (operand : Reader (Option Expression)) :
    (steps : Nat) → Option Expression → Reader (Option Expression)
  | 0, left => pure left
  | steps + 1, left => do
      match ← grammar.readOperator level with
      | none => return left
      | some (operator, comments) =>
          let right := rightOperand operator (← operand)
          let comments ← if comments.isEmpty then claimComments else pure comments
          readChain level operand steps
            (some (.binary operator comments (left.getD .missing) right))

/-- Read operands joined by the operators of a level. -/
def readJoined (level : Level) (operand : Reader (Option Expression)) :
    Reader (Option Expression) := do
  let left ← operand
  grammar.readChain level operand (← remaining) left

/-- Read up to the operators of bits. -/
def readBitwise : Reader (Option Expression) :=
  grammar.readJoined .bitwise <| grammar.readJoined .term <| grammar.readJoined .factor <|
    grammar.readJoined .power grammar.readUnary

/-- The words and symbols that compare a value with a pattern or another value. -/
def patternOperators : List String :=
  ["LIKE", "ILIKE", "RLIKE", "REGEXP", "GLOB", "SIMILAR TO", "OVERLAPS", "~~", "~~*", "~*", "@>",
   "<@", "@@"] ++
    match grammar.dialect with
    | .postgresql => ["~", "&&", "?&", "?|", "#-", "&<", "&>", "-|-", "^@"]
    | .mysql => ["MEMBER OF", "SOUNDS LIKE"]
    | _ => []

/-- Read the values that a value is looked up in. -/
def readMembership (value : Expression) : Reader Expression := do
  if ← skipSymbol ["("] then
    let values ← if ← sees (·.isWord ["SELECT", "WITH"]) then do
        let words ← readQuery (← remaining) 0
        pure [Expression.word (List.intercalate [' '] words)]
      else readAnnotated Expression.annotate (grammar.inner .disjunction)
    let _ ← skipSymbol [")"]
    claim (.sequence [value, .list " IN (".toList [')'] values])
  else
    let field ← grammar.readColumn
    claim (.sequence [value, .word " IN ".toList, field.getD .missing])

/-- Read a test of a value against a range, a list or a pattern. -/
def readTest (negated : Bool) (value : Expression) : Reader (Option Expression) := do
  if ← skipWord ["IN"] then return some (← grammar.readMembership value)
  if ← skipWord ["BETWEEN"] then
    let low ← grammar.readBitwise
    let _ ← skipWord ["AND"]
    let high ← grammar.readBitwise
    return some (← claim (.sequence [value, .word " BETWEEN ".toList, low.getD .missing,
      .word " AND ".toList, high.getD .missing]))
  let tests := grammar.patternOperators
  match ← readIf? fun token => token.isWord tests || token.isSymbol tests with
  | some token =>
      let pattern ← grammar.readBitwise
      let test : Expression :=
        .binary (capitals token.text) [] value (pattern.getD .missing)
      if ← skipWord ["ESCAPE"] then
        let mark ← readString
        return some (← claim (.binary "ESCAPE".toList [] test (mark.getD .missing)))
      else return some (← claim test)
  | none =>
      if ← skipWord ["ISNULL"] then return some (← claim (.binary "IS".toList [] value .null))
      if ← skipWhen negated (skipWord ["NULL"]) then
        return some (← claim (.binary "IS".toList [] value .null))
      return none

/-- Read a test for null or truth. -/
def readIs (value : Expression) : Reader (Option Expression) := attempt do
  if !(← skipWord ["IS"]) then return none
  let negated ← skip Token.negates
  let operator ← if ← skipPhrase ["DISTINCT", "FROM"] then pure "IS DISTINCT FROM".toList
    else pure "IS".toList
  let some other ← grammar.readBitwise | return none
  let test ← claim (.binary operator [] value other)
  return some (if negated then .unary "NOT ".toList test else test)

/-- Read a value with the test that may follow it. -/
def readRange : Reader (Option Expression) := do
  let value ← grammar.readBitwise
  let negated ← skip Token.negates
  let tested ← grammar.readTest negated (value.getD .missing)
  let value := if tested.isSome then tested else value
  let value ← if ← skipWord ["NOTNULL"] then do
      let test : Expression := .binary "IS".toList [] (value.getD .missing) .null
      pure (some (.unary "NOT ".toList test))
    else pure value
  let value := if negated then value.map (.unary "NOT ".toList) else value
  match ← grammar.readIs (value.getD .missing) with
  | some test => return some test
  | none => return value

/-- Read an expression whose operators bind at least as tightly as a level. -/
def readLevel (level : Level) : Reader (Option Expression) :=
  let joined := grammar.readJoined
  match level with
  | .disjunction =>
      joined .disjunction <| joined .conjunction <| joined .equality <|
        joined .comparison grammar.readRange
  | .conjunction =>
      joined .conjunction <| joined .equality <| joined .comparison grammar.readRange
  | .equality => joined .equality <| joined .comparison grammar.readRange
  | .comparison => joined .comparison grammar.readRange
  | .range => grammar.readRange
  | .bitwise => grammar.readBitwise
  | .term => joined .term <| joined .factor <| joined .power grammar.readUnary
  | .factor => joined .factor <| joined .power grammar.readUnary
  | .power => joined .power grammar.readUnary
  | .unary => grammar.readUnary
  | .operand => grammar.readOperand

/-- The grammar that reads up to some depth of nesting. -/
def ofDepth (dialect : Dialect) : (depth : Nat) → Grammar
  | 0 => { dialect, inner := fun _ => pure none }
  | depth + 1 => { dialect, inner := (ofDepth dialect depth).readLevel }

end Grammar

end SchemaNotation.Ddl
