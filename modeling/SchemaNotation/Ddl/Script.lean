import SchemaNotation.Ddl.Definition
import SchemaNotation.Ddl.Import
import SchemaNotation.Ddl.Token.Lexer

/-!
# Scripts

A script is a sequence of statements, separated by semicolons.  A definition of a table
or an index is read as far as it goes; when something other than a comma or a closing
parenthesis is left over, it counts as some other statement.
-/

namespace SchemaNotation.Ddl

open Reader

namespace Grammar

variable (grammar : Grammar)

/-! ## Properties of a table -/

/-- The properties that are single words. -/
def flagWords : List String :=
  ["DETERMINISTIC", "EXTERNAL", "GLOBAL", "HEAP", "ICEBERG", "IMMUTABLE", "MATERIALIZED",
   "MULTISET", "SECURE", "SET", "STABLE", "STREAMING", "STRICT", "TEMP", "TEMPORARY",
   "TRANSIENT", "UNLOGGED", "VOLATILE"] ++
    if grammar.dialect == .oracle then ["FORCE", "PRIVATE"] else []

/-- The properties that are given a value. -/
def assignedWords : List String :=
  ["ALGORITHM", "AUTO_INCREMENT", "COLLATE", "COMMENT", "DEFINER", "ENGINE", "FORMAT", "LANGUAGE",
   "LOCATION", "ROW_FORMAT", "TABLESPACE", "USING"]

/-- Skip the bounds of a partition. -/
def skipPartitionBounds : Reader Unit := do
  if !(← skipWord ["DEFAULT"]) then
    if ← skipPhrase ["FOR", "VALUES"] then
      if ← skipText ["IN", "WITH"] then skipList
      else
        let _ ← skipText ["FROM"]
        skipList
        let _ ← skipText ["TO"]
        skipList

/-- Skip the partitions of a table in MySQL, by ranges or by lists of values.  Other
partitions are not understood. -/
def skipPartitions : Reader Bool := do
  if ← skipText ["RANGE", "LIST"] then
    let _ ← readWrapped (readSeparated (grammar.readLevel .disjunction))
    if (← peekSecond?).any (·.reads ["PARTITION"]) then skipList
    return true
  else return false

/-- Skip a property behind the word that starts it, unless it turns out to be none. -/
def skipPropertyBody (items : Reader (List Item)) (word : String) : Reader Bool := do
  match word with
  | "CHARSET" | "CHARACTER SET" =>
      let _ ← skipSymbol ["="]
      skipValue
      return true
  | "CHECKSUM" =>
      let _ ← skipSymbol ["="]
      let _ ← skipText ["ON", "OFF"]
      let _ ← skipWord ["DEFAULT"]
      return true
  | "INHERITS" =>
      let _ ← readWrapped (readSeparated (do return some (← grammar.readObjectName)))
      return true
  | "LIKE" =>
      grammar.skipLike items
      return true
  | "ON" =>
      if ← skipAnyPhrase [["COMMIT", "PRESERVE", "ROWS"], ["COMMIT", "DELETE", "ROWS"]] then
        return true
      let _ ← grammar.readName true
      let _ ← readSchema? items
      return true
  | "PARTITION BY" =>
      if grammar.dialect == .mysql then grammar.skipPartitions
      else
        let _ ← skipSymbol ["="]
        if (← readSchema? items).isNone then let _ ← grammar.readField false
        return true
  | "PARTITIONED BY" =>
      let _ ← skipSymbol ["="]
      if (← readSchema? items).isNone then let _ ← grammar.readField false
      return true
  | "PARTITION" =>
      if ← skipText ["OF"] then
        let _ ← grammar.readObjectName
        let _ ← readSchema? items
        skipPartitionBounds
        return true
      else return false
  | "PRIMARY KEY" =>
      let _ ← grammar.readPrimaryKey
      return true
  | "WITH" =>
      if ← sees (·.isSymbol ["("]) then
        skipList
        return true
      skipAnyPhrase [["DATA"], ["NO", "DATA"]]
  | _ =>
      if assignedWords.contains word then
        let _ ← skipSymbol ["="]
        let _ ← skipWord ["AS"]
        let _ ← grammar.readField false
      return true

/-- The words that start a property. -/
def propertyWords : List String :=
  grammar.flagWords ++ assignedWords ++
    ["CHARSET", "CHARACTER SET", "CHECKSUM", "INHERITS", "LIKE", "ON", "PARTITION", "PARTITION BY",
     "PARTITIONED BY", "PRIMARY KEY", "WITH"]

/-- Skip a property that starts with a word of its own. -/
def skipWordProperty (items : Reader (List Item)) : Reader Bool := do
  let input ← get
  match ← readIf? (·.reads grammar.propertyWords) with
  | none => return false
  | some token =>
      let found ← grammar.skipPropertyBody items (String.ofList (capitals token.text))
      unless found do set input
      return found

/-- Skip a name with the value it is set to. -/
def skipSetting : Reader Bool := do
  let input ← get
  let _ ← grammar.readColumn
  if ← skipSymbol ["="] then
    if (← grammar.readBitwise).isNone then let _ ← skip Token.isUnreserved
    return true
  else
    set input
    return false

/-- Skip an option of a sequence, which may stand behind a table as well. -/
def skipSequenceOption : Reader Bool := do
  if ← skipText ["CACHE"] then
    let _ ← skip (·.kind == .number)
    return true
  skipText ["CYCLE", "KEEP", "NOCACHE", "NOCYCLE", "NOKEEP", "NOORDER", "ORDER", "SESSION"]

/-- Skip a property of a table. -/
def skipProperty (items : Reader (List Item)) : Reader Bool := do
  if ← grammar.skipWordProperty items then return true
  if ← skipWord ["DEFAULT"] then
    if ← grammar.skipWordProperty items then return true
  if ← skipSequenceOption then return true
  if ← grammar.skipSetting then return true
  skipSymbol [","]

/-- Skip the properties of a table. -/
def skipProperties (items : Reader (List Item)) : Reader Unit := do
  skipMany (grammar.skipProperty items) (← remaining)

/-! ## Statements -/

/-- Skip the query that fills a table, with all that follows it. -/
def skipFilling (behindAs : Bool) : Reader Unit := do
  let opens := fun (token : Token) => token.isWord ["SELECT", "WITH"]
  let nested := (← sees (·.isSymbol ["("])) &&
    (← peekSecond?).any fun token => opens token || token.isSymbol ["("]
  if (← sees opens) || nested then set ({ tokens := [] } : Input)
  else if behindAs then let _ ← grammar.readObjectName

/-- Skip the indexes behind a table, in a bounded number of steps. -/
def skipIndexes (items : Reader (List Item)) : (steps : Nat) → Reader Unit
  | 0 => pure ()
  | steps + 1 => do
      let _ ← skipWord ["UNIQUE"]
      let _ ← skipText ["PRIMARY"]
      if ← skipWord ["INDEX"] then
        let _ ← grammar.readName true
        let _ ← grammar.readIndexParameters
        grammar.skipProperties items
        let _ ← skipSymbol [","]
        skipIndexes items steps

/-- Read the definition of a table behind its first words. -/
def readTable (items : Reader (List Item)) : Reader Statement := do
  let name ← grammar.readObjectName
  let _ ← skipSymbol [","]
  skipMany (grammar.skipWordProperty items) (← remaining)
  let list ← readSchema? items
  grammar.skipProperties items
  let behindAs ← skipWord ["AS"]
  if !(← sees fun token => token.isWord ["SELECT", "WITH"] || token.isSymbol ["("]) then
    grammar.skipProperties items
  grammar.skipFilling behindAs
  grammar.skipProperties items
  grammar.skipIndexes items (← remaining)
  return .createTable name (list.map (·.flatMap (Item.elements grammar.dialect)))

/-- Read the definition of an index behind its first words. -/
def readIndex : Reader Statement := do
  if !(← skipWord ["ON"]) then
    let _ ← grammar.readName true
    let _ ← skipWord ["ON"]
  let _ ← skipWord ["TABLE"]
  let table ← grammar.readObjectName
  let parts ← grammar.readIndexParameters
  return .createIndex table (parts.map Expression.firstName)

/-- Skip the words that only let a definition be made again. -/
def skipExistence : Reader Unit := do
  let _ ← skipText ["CONCURRENTLY"]
  if ← skipText ["IF"] then
    if ← skip Token.negates then let _ ← skipWord ["EXISTS"]

/-- Read a definition behind the word that starts it. -/
def readDefinition (items : Reader (List Item)) : Reader Statement := do
  let _ ← skipAnyPhrase [["OR", "REPLACE"], ["OR", "ALTER"]]
  let _ ← skipWord ["UNIQUE"]
  let _ ← skipAnyPhrase [["CLUSTERED", "COLUMNSTORE"], ["NONCLUSTERED", "COLUMNSTORE"],
    ["COLUMNSTORE"]]
  if !(← sees (·.isWord ["TABLE", "INDEX"])) then grammar.skipProperties items
  if ← skipWord ["TABLE"] then
    skipExistence
    grammar.readTable items
  else if ← skipWord ["INDEX"] then
    skipExistence
    grammar.readIndex
  else return .other

end Grammar

/-- Read a statement.  A definition that is not understood to its end is some other
statement. -/
def Statement.read (dialect : Dialect) (tokens : List Token) : Statement :=
  let depth := tokens.length + 1
  let grammar := Grammar.ofDepth dialect depth
  let read : Reader Statement := do
    if ← skipWord ["CREATE"] then
      let statement ← grammar.readDefinition (grammar.readItems depth)
      if ← sees (!·.isSymbol [")", ","]) then return .other
      else return statement
    else return .other
  (read.run { tokens }).1

/-- The statements of a script. -/
def statements (dialect : Dialect) (script : Text) : Except Unterminated (List Statement) := do
  return (splitStatements (← tokens dialect script)).map (Statement.read dialect)

/-- Import the schema that a script defines. -/
def importScript (dialect : Dialect) (script : Text) :
    Except ImportError (Schema × List Warning) :=
  match statements dialect script with
  | .ok statements => importStatements dialect statements
  | .error _ => .error .unterminatedText

end SchemaNotation.Ddl
