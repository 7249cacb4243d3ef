import SchemaNotation.Dialect
import SchemaNotation.Ddl.Token

/-!
# Type names in a script

Many words name the same kind of type.  A declared type is kept by its kind and written
out in the spelling that its dialect prefers for that kind.  Any other name is a type of
the user's own, and is written as declared.
-/

namespace SchemaNotation.Ddl

/-- A declared type.  Parameters and array bounds are kept as they are written out, and
comments follow the type they belong to. -/
inductive TypeName where
  | known (kind : String) (parameters : List Text)
  | interval (unit : Text) (parameters : List Text)
  | custom (name : Text) (parameters : List Text)
  | array (element : TypeName) (bounds : List Text)
  | commented (type : TypeName) (comments : List Text)
  deriving BEq, Repr

/-- The words that name a kind of type in every dialect, by kind. -/
def commonTypeWords : List (String × List String) :=
  [("BIT", ["BIT"]), ("BOOLEAN", ["BOOLEAN", "BOOL"]),
   ("TINYINT", ["TINYINT", "INT1", "BYTE", "INT8"]),
   ("SMALLINT", ["SMALLINT", "INT2", "SHORT", "INT16"]), ("MEDIUMINT", ["MEDIUMINT"]),
   ("INT", ["INT", "INTEGER", "INT4", "INT32"]), ("BIGINT", ["BIGINT", "LONG", "INT64"]),
   ("INT128", ["INT128", "HUGEINT"]), ("INT256", ["INT256"]), ("UINT", ["UINT"]),
   ("UINT128", ["UINT128", "UHUGEINT"]), ("UINT256", ["UINT256"]),
   ("DECIMAL", ["DECIMAL", "DEC", "FIXED", "NUMBER", "NUMERIC"]),
   ("BIGDECIMAL", ["BIGDECIMAL", "BIGNUMERIC"]), ("FLOAT", ["FLOAT", "REAL", "FLOAT4"]),
   ("DOUBLE", ["DOUBLE", "DOUBLE PRECISION", "FLOAT8"]), ("JSON", ["JSON"]), ("JSONB", ["JSONB"]),
   ("CHAR", ["CHAR", "CHARACTER"]),
   ("VARCHAR", ["VARCHAR", "VARCHAR2", "CHAR VARYING", "CHARACTER VARYING"]),
   ("NCHAR", ["NCHAR"]), ("NVARCHAR", ["NVARCHAR", "NVARCHAR2"]), ("BPCHAR", ["BPCHAR"]),
   ("TEXT", ["TEXT", "STR", "STRING", "CLOB", "LONGVARCHAR"]), ("LONGTEXT", ["LONGTEXT"]),
   ("MEDIUMTEXT", ["MEDIUMTEXT"]), ("TINYTEXT", ["TINYTEXT"]), ("BINARY", ["BINARY"]),
   ("VARBINARY", ["VARBINARY", "BLOB", "BYTEA"]), ("LONGBLOB", ["LONGBLOB"]),
   ("MEDIUMBLOB", ["MEDIUMBLOB"]), ("TINYBLOB", ["TINYBLOB"]), ("TIME", ["TIME"]),
   ("TIMETZ", ["TIMETZ"]), ("TIMESTAMP", ["TIMESTAMP"]), ("TIMESTAMPTZ", ["TIMESTAMPTZ"]),
   ("TIMESTAMPLTZ", ["TIMESTAMPLTZ", "TIMESTAMP_LTZ"]),
   ("TIMESTAMPNTZ", ["TIMESTAMPNTZ", "TIMESTAMP_NTZ"]), ("DATE", ["DATE"]),
   ("DATETIME", ["DATETIME"]), ("UUID", ["UUID"]), ("GEOGRAPHY", ["GEOGRAPHY"]),
   ("GEOMETRY", ["GEOMETRY"]), ("INET", ["INET"]), ("ENUM", ["ENUM"]),
   ("INTERVAL", ["INTERVAL"]), ("ARRAY", ["ARRAY"]), ("LIST", ["LIST"]), ("MAP", ["MAP"]),
   ("STRUCT", ["STRUCT"]), ("OBJECT", ["OBJECT"]), ("VECTOR", ["VECTOR"]),
   ("VARIANT", ["VARIANT"]), ("UNKNOWN", ["UNKNOWN"]), ("NULL", ["NULL"]),
   ("INT4RANGE", ["INT4RANGE"]), ("INT8RANGE", ["INT8RANGE"]), ("NUMRANGE", ["NUMRANGE"]),
   ("TSRANGE", ["TSRANGE"]), ("TSTZRANGE", ["TSTZRANGE"]), ("DATERANGE", ["DATERANGE"])]

/-- The words whose kind is particular to a dialect. -/
def dialectTypeWords : Dialect → List (String × List String)
  | .postgresql =>
      [("DOUBLE", ["FLOAT"]), ("BIGINT", ["INT8"]), ("SERIAL", ["SERIAL"]),
       ("SMALLSERIAL", ["SMALLSERIAL"]), ("BIGSERIAL", ["BIGSERIAL"]), ("MONEY", ["MONEY"]),
       ("XML", ["XML"]), ("POINT", ["POINT"]), ("HSTORE", ["HSTORE"]), ("NAME", ["NAME"]),
       ("OID", ["OID"]), ("REGCLASS", ["REGCLASS"]), ("REGPROC", ["REGPROC"]),
       ("REGTYPE", ["REGTYPE"]), ("REGROLE", ["REGROLE"]), ("REGNAMESPACE", ["REGNAMESPACE"]),
       ("REGCONFIG", ["REGCONFIG"])]
  | .mysql =>
      [("TIMESTAMPTZ", ["TIMESTAMP"]), ("BLOB", ["BLOB"]), ("YEAR", ["YEAR"]), ("SET", ["SET"]),
       ("SERIAL", ["SERIAL"]), ("BIGINT", ["SIGNED", "SIGNED INTEGER"]),
       ("UBIGINT", ["UNSIGNED", "UNSIGNED INTEGER"])]
  | .sqlserver =>
      [("UTINYINT", ["TINYINT"]), ("ROWVERSION", ["ROWVERSION", "TIMESTAMP"]),
       ("DATETIME2", ["DATETIME2"]), ("TIMESTAMPTZ", ["DATETIMEOFFSET"]),
       ("SMALLDATETIME", ["SMALLDATETIME"]), ("MONEY", ["MONEY"]),
       ("SMALLMONEY", ["SMALLMONEY"]), ("IMAGE", ["IMAGE"]), ("TEXT", ["NTEXT"]),
       ("UUID", ["UNIQUEIDENTIFIER"]), ("VARIANT", ["SQL_VARIANT"]), ("XML", ["XML"])]
  | .oracle => [("FLOAT", ["BINARY_FLOAT"]), ("DOUBLE", ["BINARY_DOUBLE"])]
  | .sqlite => []

/-- The kind of type that a word in capitals names. -/
def typeKind? (dialect : Dialect) (word : Text) : Option String :=
  ((dialectTypeWords dialect ++ commonTypeWords).find? fun (_, words) =>
    words.any (·.toList == word)).map Prod.fst

/-- The kinds of type whose name a dialect follows by a time zone. -/
def takesTimeZone (kind : String) : Bool :=
  ["TIME", "TIMETZ", "TIMESTAMP", "TIMESTAMPTZ", "TIMESTAMPLTZ"].contains kind

/-- The unsigned kinds of number, with the signed ones. -/
def unsignedKinds : List (String × String) :=
  [("UTINYINT", "TINYINT"), ("USMALLINT", "SMALLINT"), ("UMEDIUMINT", "MEDIUMINT"),
   ("UINT", "INT"), ("UBIGINT", "BIGINT"), ("UDECIMAL", "DECIMAL"), ("UDOUBLE", "DOUBLE")]

/-- The unsigned form of a kind.  A kind that has none stays as it is. -/
def unsignedKind (kind : String) : String :=
  match unsignedKinds.find? fun (_, signed) => signed == kind with
  | some (unsigned, _) => unsigned
  | none => kind

/-- The kinds that most dialects write in another way. -/
def commonSpellings : List (String × String) :=
  [("DATETIME2", "TIMESTAMP"), ("NCHAR", "CHAR"), ("NVARCHAR", "VARCHAR"),
   ("MEDIUMTEXT", "TEXT"), ("LONGTEXT", "TEXT"), ("TINYTEXT", "TEXT"), ("BLOB", "VARBINARY"),
   ("MEDIUMBLOB", "BLOB"), ("LONGBLOB", "BLOB"), ("TINYBLOB", "BLOB"),
   ("ROWVERSION", "VARBINARY"), ("SMALLDATETIME", "TIMESTAMP")]

/-- The kinds that a dialect writes in a way of its own. -/
def dialectSpellings : Dialect → List (String × String)
  | .postgresql =>
      [("TINYINT", "SMALLINT"), ("FLOAT", "REAL"), ("DOUBLE", "DOUBLE PRECISION"),
       ("BINARY", "BYTEA"), ("VARBINARY", "BYTEA"), ("BLOB", "BYTEA"), ("ROWVERSION", "BYTEA"),
       ("DATETIME", "TIMESTAMP"), ("TIMESTAMPNTZ", "TIMESTAMP")]
  | .mysql =>
      [("TIMESTAMPTZ", "TIMESTAMP"), ("TIMESTAMPLTZ", "TIMESTAMP"), ("TIMESTAMP", "DATETIME"),
       ("TIMESTAMPNTZ", "DATETIME"), ("DATETIME2", "DATETIME"), ("SMALLDATETIME", "DATETIME"),
       ("MEDIUMTEXT", "MEDIUMTEXT"), ("LONGTEXT", "LONGTEXT"), ("TINYTEXT", "TINYTEXT"),
       ("BLOB", "BLOB"), ("MEDIUMBLOB", "MEDIUMBLOB"), ("LONGBLOB", "LONGBLOB"),
       ("TINYBLOB", "TINYBLOB")] ++
        unsignedKinds.map fun (kind, signed) => (kind, signed)
  | .sqlserver =>
      [("BOOLEAN", "BIT"), ("DECIMAL", "NUMERIC"), ("DOUBLE", "FLOAT"), ("INT", "INTEGER"),
       ("TEXT", "VARCHAR(MAX)"), ("TIMESTAMP", "DATETIME2"), ("TIMESTAMPNTZ", "DATETIME2"),
       ("TIMESTAMPTZ", "DATETIMEOFFSET"), ("UTINYINT", "TINYINT"), ("VARIANT", "SQL_VARIANT"),
       ("UUID", "UNIQUEIDENTIFIER"), ("ROWVERSION", "ROWVERSION"),
       ("SMALLDATETIME", "SMALLDATETIME"), ("DATETIME2", "DATETIME2"), ("NCHAR", "NCHAR"),
       ("NVARCHAR", "NVARCHAR")]
  | .oracle =>
      [("TINYINT", "SMALLINT"), ("BIGINT", "INT"), ("DECIMAL", "NUMBER"),
       ("DOUBLE", "DOUBLE PRECISION"), ("VARCHAR", "VARCHAR2"), ("NVARCHAR", "NVARCHAR2"),
       ("NCHAR", "NCHAR"), ("TEXT", "CLOB"), ("TIMETZ", "TIME"), ("TIMESTAMPTZ", "TIMESTAMP"),
       ("BINARY", "BLOB"), ("VARBINARY", "BLOB"), ("ROWVERSION", "BLOB")]
  | .sqlite =>
      [("BOOLEAN", "INTEGER"), ("TINYINT", "INTEGER"), ("SMALLINT", "INTEGER"),
       ("INT", "INTEGER"), ("BIGINT", "INTEGER"), ("FLOAT", "REAL"), ("DOUBLE", "REAL"),
       ("DECIMAL", "REAL"), ("CHAR", "TEXT"), ("NCHAR", "TEXT"), ("VARCHAR", "TEXT"),
       ("NVARCHAR", "TEXT"), ("BINARY", "BLOB"), ("VARBINARY", "BLOB")]

/-- The spelling of a kind of type. -/
def spelling (dialect : Dialect) (kind : String) : String :=
  ((dialectSpellings dialect ++ commonSpellings).lookup kind).getD kind

/-- Parameters in parentheses, or nothing when there are none. -/
def renderParameters (parameters : List Text) : Text :=
  if parameters.isEmpty then []
  else '(' :: List.intercalate ", ".toList parameters ++ [')']

/-- The text of a type of a known kind. -/
def renderKnown (dialect : Dialect) (kind : String) (parameters : List Text) : Text :=
  let plain := (spelling dialect kind).toList ++ renderParameters parameters
  match dialect with
  | .postgresql =>
      if (kind == "FLOAT" || kind == "DOUBLE") && !parameters.isEmpty then
        "FLOAT".toList ++ renderParameters parameters
      else plain
  | .mysql =>
      if kind == "VARCHAR" && parameters.isEmpty then "TEXT".toList
      else if unsignedKinds.any fun (unsigned, _) => unsigned == kind then
        plain ++ " UNSIGNED".toList
      else plain
  | .oracle =>
      if kind == "TIMETZ" || kind == "TIMESTAMPTZ" then plain ++ " WITH TIME ZONE".toList
      else plain
  | _ => plain

/-- Write a comment between comment marks, set off by blanks.  Marks inside the comment
are taken apart. -/
def renderComment (comment : Text) : Text :=
  let front := if comment.head?.any isBlank then [] else [' ']
  let back := if comment.getLast?.any isBlank then [] else [' ']
  "/*".toList ++ splitMarks (front ++ comment ++ back) ++ "*/".toList
where
  /-- Put a space into every comment mark. -/
  splitMarks : Text → Text
    | '*' :: '/' :: text => '*' :: ' ' :: '/' :: splitMarks text
    | '/' :: '*' :: text => '/' :: ' ' :: '*' :: splitMarks text
    | c :: text => c :: splitMarks text
    | [] => []

/-- Comments behind the text they belong to.  Empty comments are left out. -/
def renderComments (comments : List Text) : Text :=
  comments.flatMap fun comment => if comment.isEmpty then [] else ' ' :: renderComment comment

/-- The text of a type. -/
def TypeName.render (dialect : Dialect) : TypeName → Text
  | .known kind parameters => renderKnown dialect kind parameters
  | .interval unit parameters =>
      "INTERVAL".toList ++ unit ++
        (if parameters.isEmpty then []
          else if unit.isEmpty then ' ' :: List.intercalate ", ".toList parameters
          else renderParameters parameters)
  | .custom name parameters => name ++ renderParameters parameters
  | .array element bounds =>
      match dialect with
      | .postgresql =>
          element.render dialect ++ '[' :: List.intercalate ", ".toList bounds ++ [']']
      | _ =>
          "ARRAY<".toList ++ element.render dialect ++ ['>'] ++
            (if bounds.isEmpty then []
              else '[' :: List.intercalate ", ".toList bounds ++ [']'])
  | .commented type comments => type.render dialect ++ renderComments comments

/-- The kind of a type, when it is known. -/
def TypeName.kind? : TypeName → Option String
  | .known kind _ => some kind
  | .commented type _ => type.kind?
  | _ => none

end SchemaNotation.Ddl
