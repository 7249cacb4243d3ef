import SchemaNotation.Ddl.TypeName

/-!
# Words and names

A word of a script may be a keyword.  Some keywords cannot be names, others still can,
and a word that is neither a keyword nor the name of a type is plain.
-/

namespace SchemaNotation.Ddl

/-- The keywords that cannot be names. -/
def reservedWords (dialect : Dialect) : List String :=
  ["ALTER", "ANALYZE", "AND", "AS", "BETWEEN", "CHARACTER SET", "CLUSTER BY", "CONNECT BY",
   "CREATE", "CROSS", "DISTINCT", "DISTRIBUTE BY", "DROP", "ELSE", "EXCEPT", "FETCH", "FOR",
   "FOR TIMESTAMP", "FOR VERSION", "FROM", "GLOB", "GRANT", "GROUP BY", "GROUPING SETS",
   "HAVING", "ILIKE", "IN", "INNER", "INSERT", "INTERSECT", "INTO", "JOIN", "LATERAL", "LIKE",
   "LOCK", "NOT", "NOTNULL", "ON", "OR", "ORDER BY", "OUTER", "OVER", "PARTITION BY",
   "PARTITIONED BY", "PRIMARY KEY", "QUALIFY", "REGEXP", "RETURNING", "RLIKE", "ROLLBACK",
   "SELECT", "SIMILAR TO", "SORT BY", "START WITH", "STRAIGHT_JOIN", "TABLESAMPLE", "THEN",
   "UNCACHE", "UNION", "USING", "VALUES", "WHEN", "WHERE", "WITH", "XOR"] ++
    match dialect with
    | .mysql =>
        ["CHARSET", "DISTINCTROW", "MEMBER OF", "MOD", "SOUNDS LIKE"]
    | .sqlserver => ["FOR SYSTEM_TIME", "OPTION", "OUTPUT"]
    | .oracle => ["MINUS", "SAMPLE"]
    | _ => []

/-- The keywords that can be names. -/
def openKeywords (dialect : Dialect) : List String :=
  ["ALL", "ANTI", "ANY", "APPLY", "ASC", "ASOF", "AUTOINCREMENT", "AUTO_INCREMENT", "BEGIN",
   "CACHE", "CALL", "CASE", "COLLATE", "COLUMN", "COMMENT", "COMMIT", "CONSTRAINT", "COPY",
   "CUBE", "CURRENT_DATE", "CURRENT_SCHEMA", "CURRENT_TIME", "CURRENT_TIMESTAMP",
   "CURRENT_USER", "DATABASE", "DEFAULT", "DELETE", "DESC", "DESCRIBE", "DIV", "END", "ESCAPE",
   "EXECUTE", "EXISTS", "EXPLAIN", "FALSE", "FILE", "FILTER", "FIRST", "FOREIGN KEY", "FORMAT",
   "FULL", "FUNCTION", "INDEX", "IS", "ISNULL", "KEEP", "KILL", "LEFT", "LIMIT", "LOAD",
   "MERGE", "NAMESPACE", "NATURAL", "NEXT", "OFFSET", "OPERATOR", "OPTIMIZE", "ORDINALITY",
   "OVERLAPS", "OVERWRITE", "PARTITION", "PERCENT", "PIVOT", "PRAGMA", "PREPARE", "PROCEDURE",
   "RANGE", "RECURSIVE", "REFERENCES", "RENAME", "REPLACE", "RIGHT", "ROLLUP", "ROW", "ROWS",
   "SCHEMA", "SEMI", "SESSION", "SESSION_USER", "SET", "SETTINGS", "SHOW", "SOME", "TABLE",
   "TEMP", "TEMPORARY", "TRUE", "TRUNCATE", "UNIQUE", "UNNEST", "UNPIVOT", "UPDATE", "USE",
   "VACUUM", "VIEW", "VOLATILE", "WINDOW"] ++
    match dialect with
    | .mysql => ["FORCE", "IGNORE", "KEY", "LOCK TABLES", "SEPARATOR", "START", "UNLOCK TABLES"]
    | .sqlserver =>
        ["CLUSTERED INDEX", "DECLARE", "EXEC", "GO", "NONCLUSTERED INDEX", "PRINT", "PROC",
         "SYSTEM_USER", "TOP", "UPDATE STATISTICS"]
    | .oracle =>
        ["COLUMNS", "MATCH_RECOGNIZE", "START", "SYSDATE", "SYSTIMESTAMP", "TOP"]
    | .postgresql => ["DO", "EXEC", "RESET", "REVOKE"]
    | .sqlite => ["ATTACH", "DETACH"]

/-- The keywords that can be the name of a function. -/
def functionKeywords (dialect : Dialect) : List String :=
  ["ALL", "ANY", "COLLATE", "COMMENT", "CURRENT_DATE", "CURRENT_SCHEMA", "CURRENT_TIME",
   "CURRENT_TIMESTAMP", "CURRENT_USER", "EXISTS", "FILTER", "FIRST", "FORMAT", "GLOB", "ILIKE",
   "INDEX", "INSERT", "ISNULL", "LEFT", "LIKE", "MERGE", "NEXT", "OFFSET", "PRIMARY KEY",
   "RANGE", "REGEXP", "REPLACE", "RIGHT", "RLIKE", "ROW", "SESSION_USER", "SOME", "TABLE",
   "TRUNCATE", "UNNEST", "WINDOW", "XOR"] ++
    match dialect with
    | .mysql => ["CHARSET", "DATABASE", "MOD", "SCHEMA", "VALUES"]
    | .sqlserver => ["SYSTEM_USER"]
    | _ => []

namespace Token

/-- Whether a token can be a name. -/
def isName (dialect : Dialect) (token : Token) : Bool :=
  token.kind == .quotedName || (token.kind == .word && !token.isWord (reservedWords dialect))

/-- The kind of type that a word names. -/
def typeKind? (dialect : Dialect) (token : Token) : Option String :=
  if token.kind == .word then Ddl.typeKind? dialect (capitals token.text) else none

/-- Whether a token is a word that is no keyword and names no type. -/
def isPlain (dialect : Dialect) (token : Token) : Bool :=
  token.kind == .word && !token.isWord (reservedWords dialect) &&
    !token.isWord (openKeywords dialect) && (token.typeKind? dialect).isNone

/-- Whether a token can be the name of a function. -/
def isFunctionName (dialect : Dialect) (token : Token) : Bool :=
  token.kind == .quotedName || token.isPlain dialect || (token.typeKind? dialect).isSome ||
    token.isWord (functionKeywords dialect)

end Token

end SchemaNotation.Ddl
