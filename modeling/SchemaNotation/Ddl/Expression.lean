import SchemaNotation.Ddl.TypeName

/-!
# Expressions in a script

The default of a column is an expression, and so is each part of an index.  A default is
written out in the preferred spelling of its dialect: function names in capitals, spaces
around operators, casts in their long form.  A part of an index counts by the first name
in it, where names closer to the root come first.
-/

namespace SchemaNotation.Ddl

/-- A name as it stands in an expression. -/
structure Name where
  text : Text
  isQuoted : Bool := false
  deriving BEq, DecidableEq, Repr, Inhabited

/-- An expression.  A missing operand is written as nothing.  The operator of a binary
expression may have comments of its own, which follow the operator. -/
inductive Expression where
  | missing
  | number (text : Text)
  | string (value : Text)
  | marked (kind : TokenKind) (value : Text)
  | null
  | boolean (value : Bool)
  | star
  | word (text : Text)
  | identifier (name : Name)
  | placeholder (mark name : Text)
  | column (path : List Name) (name : Name)
  | constant (name : String)
  | call (function : Name) (arguments : List Expression)
  | member (owner value : Expression)
  | cast (value : Expression) (type : TypeName)
  | interval (value : Expression) (unit : Text)
  | parenthesized (value : Expression)
  | list (opening closing : Text) (values : List Expression)
  | sequence (parts : List Expression)
  | unary (operator : Text) (value : Expression)
  | binary (operator : Text) (comments : List Text) (left right : Expression)
  | commented (value : Expression) (comments : List Text)
  deriving Inhabited

/-- Add comments to an expression. -/
def Expression.annotate (comments : List Text) (value : Expression) : Expression :=
  if comments.isEmpty then value
  else match value with
    | .binary operator own left right => .binary operator (own ++ comments) left right
    | .commented value own => .commented value (own ++ comments)
    | value => .commented value comments

/-- An expression without its comments, and the comments. -/
def Expression.split : Expression → Expression × List Text
  | .commented value comments => (value, comments)
  | value => (value, [])

/-! ## Spelling -/

/-- A text in quotes, with the closing quote doubled inside. -/
def enclose (opening closing : Char) (text : Text) : Text :=
  opening :: text.flatMap (fun c => if c = closing then [c, c] else [c]) ++ [closing]

/-- A name in the quotes of its dialect, if it was quoted. -/
def Name.render (dialect : Dialect) (name : Name) : Text :=
  if name.isQuoted then
    match dialect with
    | .mysql => enclose backtick backtick name.text
    | .sqlserver => enclose '[' ']' name.text
    | _ => enclose '"' '"' name.text
  else name.text

/-- The characters that MySQL writes as a backslash and a letter. -/
def letterEscapes : List (Char × Char) :=
  [('\x07', 'a'), ('\x08', 'b'), ('\x0c', 'f'), ('\n', 'n'), ('\r', 'r'), ('\t', 't'),
   ('\x0b', 'v'), ('\\', '\\')]

/-- A string as a script writes it. -/
def renderString (dialect : Dialect) (value : Text) : Text :=
  match dialect with
  | .mysql =>
      apostrophe :: value.flatMap (fun c =>
        if c = apostrophe then [c, c]
        else match letterEscapes.lookup c with
          | some letter => ['\\', letter]
          | none => [c]) ++ [apostrophe]
  | _ => enclose apostrophe apostrophe value

/-- A string with a mark, or a number that is not decimal. -/
def renderMarked (dialect : Dialect) (kind : TokenKind) (value : Text) : Text :=
  match kind, dialect with
  | .national, _ => 'N' :: renderString dialect value
  | .raw, _ => renderString dialect value
  | .escaped, _ => 'e' :: enclose apostrophe apostrophe value
  | .bits, _ => 'b' :: enclose apostrophe apostrophe value
  | .hexadecimal, .sqlserver => "0x".toList ++ value
  | .hexadecimal, _ => 'x' :: enclose apostrophe apostrophe value
  | _, _ => value

/-- A call of a function with written arguments. -/
def renderCall (name : Text) (arguments : List Text) : Text :=
  name ++ '(' :: List.intercalate ", ".toList arguments ++ [')']

/-- A call, or the bare name when there are no arguments. -/
def renderOptionalCall (name : Text) (arguments : List Text) : Text :=
  if arguments.isEmpty then name else renderCall name arguments

/-- The functions that may be written without parentheses. -/
def constants (dialect : Dialect) : List String :=
  ["CURRENT_DATE", "CURRENT_TIME", "CURRENT_TIMESTAMP", "CURRENT_USER"] ++
    match dialect with
    | .oracle => ["SYSDATE", "SYSTIMESTAMP"]
    | .postgresql => ["SESSION_USER", "LOCALTIME", "LOCALTIMESTAMP"]
    | .sqlserver => ["SYSTEM_USER"]
    | _ => []

/-- A function that may be written without parentheses. -/
def renderConstant (dialect : Dialect) (name : String) (arguments : List Text) : Text :=
  match name, dialect with
  | "CURRENT_TIMESTAMP", .postgresql => name.toList
  | "CURRENT_TIMESTAMP", .sqlite => name.toList
  | "CURRENT_TIMESTAMP", .mysql => renderCall name.toList arguments
  | "CURRENT_TIMESTAMP", .sqlserver => renderCall "GETDATE".toList arguments
  | "CURRENT_DATE", .sqlserver => renderCall "GETDATE".toList arguments
  | "CURRENT_TIME", .sqlite => name.toList
  | "CURRENT_TIME", .postgresql => renderOptionalCall name.toList arguments
  | "CURRENT_TIME", _ => renderCall name.toList arguments
  | "SYSTEM_USER", .sqlserver => renderCall "CURRENT_USER".toList arguments
  | "CURRENT_USER", .postgresql => name.toList
  | "CURRENT_USER", _ => renderCall name.toList arguments
  | _, _ => renderOptionalCall name.toList arguments

/-- The functions that make up a new identifier. -/
def identifierFunctions (dialect : Dialect) : List String :=
  ["UUID", "GEN_RANDOM_UUID", "GENERATE_UUID"] ++
    if dialect == .sqlserver then ["NEWID"] else []

/-- The functions that go by another name. -/
def functionSynonyms (dialect : Dialect) : List (String × String) :=
  (identifierFunctions dialect).map (fun name => (name,
    match dialect with
    | .postgresql => "GEN_RANDOM_UUID"
    | .sqlserver => "NEWID"
    | _ => "UUID")) ++
  (match dialect with
    | .postgresql => [("NOW", "CURRENT_TIMESTAMP"), ("RAND", "RANDOM"), ("RANDOM", "RANDOM")]
    | .mysql =>
        [("CURDATE", "CURRENT_DATE"), ("CURTIME", "CURRENT_TIME"), ("RANDOM", "RAND"),
         ("CHAR_LENGTH", "CHAR_LENGTH"), ("CHARACTER_LENGTH", "CHAR_LENGTH"),
         ("TRUNC", "TRUNCATE")]
    | .sqlserver =>
        [("GETDATE", "CURRENT_TIMESTAMP"), ("SYSDATETIME", "CURRENT_TIMESTAMP"),
         ("ISNULL", "ISNULL"), ("CEIL", "CEILING"), ("CEILING", "CEILING"), ("LENGTH", "LEN"),
         ("LEN", "LEN"), ("RANDOM", "RAND"), ("SUSER_NAME", "CURRENT_USER"),
         ("SUSER_SNAME", "CURRENT_USER"), ("TRUNC", "ROUND")]
    | .oracle => [("NVL", "NVL"), ("SUBSTR", "SUBSTR"), ("SUBSTRING", "SUBSTR")]
    | .sqlite => [("RAND", "RANDOM"), ("RANDOM", "RANDOM")]) ++
  [("IFNULL", "COALESCE"), ("NVL", "COALESCE"), ("LCASE", "LOWER"), ("UCASE", "UPPER"),
   ("POW", "POWER"), ("CEILING", "CEIL"), ("SUBSTR", "SUBSTRING"), ("CHAR_LENGTH", "LENGTH"),
   ("CHARACTER_LENGTH", "LENGTH"), ("LEN", "LENGTH")]

/-- The functions whose first argument is the value they are about. -/
def valueFunctions : List String :=
  ["ABS", "ASCII", "AVG", "CEIL", "CEILING", "CHARACTER_LENGTH", "CHAR_LENGTH", "COALESCE",
   "COUNT", "DATE", "DAY", "DAYOFMONTH", "DAYOFWEEK", "DAYOFYEAR", "EXP", "FLOOR", "GREATEST",
   "HEX", "IFNULL", "INITCAP", "JSON_EXTRACT", "LCASE", "LEAST", "LEFT", "LEN", "LENGTH", "LN",
   "LOG", "LOWER", "LPAD", "LTRIM", "MAX", "MD5", "MIN", "MONTH", "NULLIF", "NVL", "POW",
   "POWER", "QUARTER", "REGEXP_LIKE", "REGEXP_REPLACE", "REPEAT", "REPLACE", "REVERSE", "RIGHT",
   "ROUND", "RPAD", "RTRIM", "SHA", "SHA1", "SHA2", "SIGN", "SOUNDEX", "SPLIT_PART", "SQRT",
   "STDDEV", "STRPOS", "SUBSTR", "SUBSTRING", "SUM", "TO_CHAR", "TO_DATE", "TO_TIMESTAMP",
   "TRIM", "TRUNC", "UCASE", "UNHEX", "UPPER", "WEEK", "YEAR"]

/-- The moments that Oracle cuts down to the day. -/
def isMoment : Expression → Bool
  | .constant _ => true
  | .commented value _ => isMoment value
  | .parenthesized value => isMoment value
  | .cast _ type => ["DATE", "DATETIME", "TIMESTAMP", "TIMESTAMPTZ"].any (some · == type.kind?)
  | .call function _ =>
      ["TO_DATE", "TO_TIMESTAMP", "CURRENT_TIMESTAMP"].any (·.toList == capitals function.text)
  | _ => false

/-- The written arguments of a function as the dialect prefers them.  Oracle cuts a moment
down to the day, SQL Server cuts off decimals by rounding, SQLite always cuts off all of
them, and PostgreSQL writes the unit of a cut in capitals. -/
def preferredArguments (dialect : Dialect) (key : String) (arguments : List Expression)
    (written : List Text) : List Text :=
  match key, dialect, arguments with
  | "TRUNC", .oracle, [argument] =>
      if isMoment argument then written ++ ["'DD'".toList] else written
  | "TRUNC", .sqlserver, _ =>
      written.take 1 ++ [written[1]?.getD ['0'], ['1']]
  | "TRUNC", .sqlite, _ => written.take 1
  | "DATE_TRUNC", .postgresql, .string unit :: _ =>
      renderString dialect (capitals unit) :: written.drop 1
  | _, _, _ => written

/-- A part of a text, with words between the text, the start and the length. -/
def renderSubstring (written : List Text) : Text :=
  let parts := ([] :: [" FROM ", " FOR "].map String.toList).zipWith (· ++ ·) written
  "SUBSTRING(".toList ++ parts.flatten ++ [')']

/-- A call with written arguments, under the name that the dialect prefers. -/
def renderFunction (dialect : Dialect) (function : Name) (arguments : List Expression)
    (written : List Text) : Text :=
  let key := String.ofList (capitals function.text)
  let written := preferredArguments dialect key arguments written
  if dialect == .postgresql && (key == "SUBSTRING" || key == "SUBSTR") then renderSubstring written
  else match (functionSynonyms dialect).lookup key with
  | some name =>
      if (constants dialect).contains name then renderConstant dialect name written
      else renderCall name.toList written
  | none =>
      if (constants dialect).contains key then renderConstant dialect key written
      else if function.isQuoted && !valueFunctions.contains key then
        renderCall (function.render dialect) written
      else renderCall key.toList written

/-- A cast with its value already written.  Some types are reached by a function, or have
another name in a cast. -/
def renderCast (dialect : Dialect) (value : Text) (type : TypeName) : Text :=
  let plain := "CAST(".toList ++ value ++ " AS ".toList ++ type.render dialect ++ [')']
  match dialect, type with
  | .mysql, .known kind parameters =>
      if kind == "TIMESTAMPTZ" || kind == "TIMESTAMPLTZ" then
        renderCall "TIMESTAMP".toList [value]
      else
        match castNames.lookup kind with
        | some name =>
            "CAST(".toList ++ value ++ " AS ".toList ++ name.toList ++
              renderParameters parameters ++ [')']
        | none => plain
  | .sqlite, .known "DATE" _ => renderCall "DATE".toList [value]
  | _, _ => plain
where
  /-- The names of the kinds that MySQL casts to under another name. -/
  castNames : List (String × String) :=
    ["LONGTEXT", "LONGBLOB", "MEDIUMBLOB", "MEDIUMTEXT", "TEXT", "TINYBLOB", "TINYTEXT",
      "VARCHAR"].map (fun kind => (kind, "CHAR")) ++
    ["BIGINT", "BOOLEAN", "INT", "SMALLINT", "TINYINT", "MEDIUMINT"].map
      (fun kind => (kind, "SIGNED")) ++
    [("UBIGINT", "UNSIGNED")]

/-- The units of time that are written in the singular. -/
def singularUnits : List (String × String) :=
  ["MICROSECOND", "SECOND", "MINUTE", "HOUR", "DAY", "WEEK", "MONTH", "QUARTER", "YEAR"].map
    fun unit => (unit ++ "S", unit)

/-- An interval of time with its value, bare and as it is written. -/
def renderInterval (dialect : Dialect) (bare value unit : Text) : Text :=
  let unit := if dialect == .mysql then
      (singularUnits.lookup (String.ofList unit)).elim unit String.toList
    else unit
  let unit := if unit.isEmpty then [] else ' ' :: unit
  match dialect with
  | .postgresql => "INTERVAL '".toList ++ bare ++ unit ++ [apostrophe]
  | _ => "INTERVAL ".toList ++ value ++ unit

/-- The operators that compare for equality. -/
def isEqualityOperator (operator : Text) : Bool :=
  ["=", "<>", "IS"].any (·.toList == operator)

/-- The operators of arithmetic. -/
def isArithmeticOperator (operator : Text) : Bool :=
  ["+", "-", "*", "/", "%"].any (·.toList == operator)

/-- The truth values of SQL Server, which has only the digits of a bit, and only next to
a comparison. -/
def renderBoolean (dialect : Dialect) (compared value : Bool) : Text :=
  match dialect with
  | .sqlserver =>
      if compared then (if value then ['1'] else ['0'])
      else if value then "(1 = 1)".toList else "(1 = 0)".toList
  | _ => if value then "TRUE".toList else "FALSE".toList

/-- An operand as it is written next to an operator. -/
def renderOperand (dialect : Dialect) (operator : Text) (operand : Expression) (written : Text) :
    Text :=
  match operand with
  | .boolean value => renderBoolean dialect (isEqualityOperator operator) value
  | .binary inner _ _ _ =>
      if dialect == .sqlite && inner == "||".toList && isArithmeticOperator operator then
        '(' :: written ++ [')']
      else written
  | _ => written

/-- A value that is filled in later.  PostgreSQL has its own marks for it. -/
def renderPlaceholder (dialect : Dialect) (mark name : Text) : Text :=
  match dialect, mark with
  | .postgresql, ['@'] => '$' :: name
  | .postgresql, [':'] => "%(".toList ++ name ++ ")s".toList
  | _, mark => mark ++ name

/-- The text of a value that is written between quotes anyway. -/
def Expression.bareText : Expression → Text
  | .string value => value
  | .number text => text
  | .commented value _ => value.bareText
  | _ => []

mutual

/-- The text of an expression. -/
def Expression.render (dialect : Dialect) : Expression → Text
  | .missing => []
  | .number text => text
  | .string value => renderString dialect value
  | .marked kind value => renderMarked dialect kind value
  | .null => "NULL".toList
  | .boolean value => renderBoolean dialect false value
  | .star => ['*']
  | .word text => text
  | .identifier name => name.render dialect
  | .placeholder mark name => renderPlaceholder dialect mark name
  | .column path name => List.intercalate ['.'] ((path ++ [name]).map (Name.render dialect))
  | .constant name => renderConstant dialect name []
  | .call function arguments =>
      renderFunction dialect function arguments (Expression.renderAll dialect arguments)
  | .member owner (.call function arguments) =>
      owner.render dialect ++ '.' ::
        renderCall (function.render dialect) (Expression.renderAll dialect arguments)
  | .member owner value => owner.render dialect ++ '.' :: value.render dialect
  | .cast value type => renderCast dialect (value.render dialect) type
  | .interval value unit => renderInterval dialect value.bareText (value.render dialect) unit
  | .parenthesized value => '(' :: value.render dialect ++ [')']
  | .list opening closing values =>
      opening ++ List.intercalate ", ".toList (Expression.renderAll dialect values) ++ closing
  | .sequence parts => (Expression.renderAll dialect parts).flatten
  | .unary operator value =>
      let written := value.render dialect
      operator ++ (if operator = ['-'] ∧ written.head? = some '-' then [' '] else []) ++ written
  | .binary operator comments left right =>
      renderOperand dialect operator left (left.render dialect) ++ ' ' :: operator ++
        renderComments comments ++
        ' ' :: renderOperand dialect operator right (right.render dialect)
  | .commented value comments => value.render dialect ++ renderComments comments

/-- The texts of several expressions. -/
def Expression.renderAll (dialect : Dialect) : List Expression → List Text
  | [] => []
  | value :: values => value.render dialect :: Expression.renderAll dialect values

end

/-! ## Names -/

/-- Join names level by level. -/
def joinLevels : List (List Text) → List (List Text) → List (List Text)
  | [], right => right
  | left, [] => left
  | first :: left, second :: right => (first ++ second) :: joinLevels left right

mutual

/-- The names in an expression by their distance from its root. -/
def Expression.levels : Expression → List (List Text)
  | .identifier name => [[name.text]]
  | .column path name => [[], name.text :: path.reverse.map Name.text]
  | .call function arguments =>
      let own := if function.isQuoted then [function.text] else []
      [] :: joinLevels [own] (Expression.levelsOfAll arguments)
  | .member owner value => [] :: joinLevels owner.levels value.levels
  | .cast value _ => [] :: value.levels
  | .interval value _ => [] :: value.levels
  | .parenthesized value => [] :: value.levels
  | .list _ _ values => [] :: Expression.levelsOfAll values
  | .sequence parts => [] :: Expression.levelsOfAll parts
  | .unary _ value => [] :: value.levels
  | .binary _ _ left right => [] :: joinLevels left.levels right.levels
  | .commented value _ => value.levels
  | _ => []

/-- The names in several expressions by their distance from the roots. -/
def Expression.levelsOfAll : List Expression → List (List Text)
  | [] => []
  | value :: values => joinLevels value.levels (Expression.levelsOfAll values)

end

/-- The text of a value that has no parts. -/
def Expression.leafText : Expression → Text
  | .number text => text
  | .string value => value
  | .null => "NULL".toList
  | .star => ['*']
  | .word text => text
  | .identifier name => name.text
  | .commented value _ => value.leafText
  | _ => []

/-- What an expression without a name is known by: its value, the value inside it, or the
function it calls. -/
def Expression.caption : Expression → Text
  | .marked _ value => value
  | .column _ name => name.text
  | .call function arguments =>
      if valueFunctions.any (·.toList == capitals function.text) then
        (arguments.head?.map Expression.leafText).getD []
      else function.text
  | .cast value _ => value.caption
  | .member _ value => value.caption
  | .parenthesized value => value.leafText
  | .unary _ value => value.leafText
  | .binary _ _ left _ => left.leafText
  | .commented value _ => value.caption
  | value => value.leafText

/-- The first name in an expression, or else what it is known by. -/
def Expression.firstName (value : Expression) : Text :=
  value.levels.flatten.head?.getD value.caption

end SchemaNotation.Ddl
