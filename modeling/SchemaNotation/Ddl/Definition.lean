import SchemaNotation.Ddl.Grammar
import SchemaNotation.Ddl.Statement

/-!
# Reading definitions

A table is defined by a list of items: columns with their clauses, and clauses that
stand for the whole table.  Columns may be listed wherever an item may stand, so the
same reader reads the columns of a key.  A clause is read as far as it goes; what is left
over is left to the reader of the statement, which then takes it for something else.
-/

namespace SchemaNotation.Ddl

open Reader

/-- What a clause of a definition states.  A primary key may be the mark of a column or
list columns of the table. -/
inductive Clause where
  | primaryKey (columns : Option (List Text))
  | unique (columns : List Text)
  | foreignKey (columns : List Text) (target : Option Reference)
  | references (target : Reference)
  | notNull
  | nullable
  | autoIncrement
  | defaultValue (value : Option Text)
  | other
  deriving BEq, DecidableEq, Repr

/-- What a clause states about the column that it stands on. -/
def Clause.onColumn : Clause → ColumnClause
  | .primaryKey none => .primaryKey
  | .primaryKey (some _) => .other
  | .unique _ => .unique
  | .foreignKey _ _ => .other
  | .references target => .references target
  | .notNull => .notNull
  | .nullable => .nullable
  | .autoIncrement => .autoIncrement
  | .defaultValue value => .defaultValue value
  | .other => .other

/-- The elements of a table that clauses state: first the primary keys, then the foreign
keys, then the unique keys. -/
def Clause.onTable (clauses : List Clause) : List TableElement :=
  clauses.filterMap primary? ++ clauses.filterMap foreign? ++ clauses.filterMap unique?
where
  /-- The primary key that a clause states. -/
  primary? : Clause → Option TableElement
    | .primaryKey (some columns) => some (.primaryKey columns)
    | _ => none
  /-- The foreign key that a clause states. -/
  foreign? : Clause → Option TableElement
    | .foreignKey columns target => some (.foreignKey columns target)
    | _ => none
  /-- The unique key that a clause states. -/
  unique? : Clause → Option TableElement
    | .unique columns => some (.unique columns)
    | _ => none

/-- An item of a list in parentheses. -/
inductive Item where
  | column (name : Expression) (type : Option TypeName) (clauses : List ColumnClause)
  | expression (value : Expression)
  | constraint (clauses : List Clause)

namespace Item

/-- The names in an item by their distance from its root. -/
def levels : Item → List (List Text)
  | .column name _ _ => [] :: name.levels
  | .expression value => value.levels
  | .constraint _ => []

/-- The first name in an item, or else what it is known by. -/
def firstName : Item → Text
  | .column name _ _ => name.levels.flatten.head?.getD name.leafText
  | .expression value => value.firstName
  | .constraint _ => []

/-- The elements of a table that an item stands for. -/
def elements (dialect : Dialect) : Item → List TableElement
  | .column name type clauses =>
      [.column name.leafText ((type.map (·.render dialect)).getD []) clauses]
  | .expression _ => []
  | .constraint clauses => Clause.onTable clauses

end Item

/-- The names of several items, those closer to the roots first. -/
def namesInOrder (levels : List (List (List Text))) : List Text :=
  (levels.foldr joinLevels []).flatten

namespace Grammar

variable (grammar : Grammar)

/-! ## Tables and lists -/

/-- Read one part of the name of a table. -/
def readTablePart : Reader (Option Text) := do
  match ← grammar.readName false with
  | some name =>
      return some (match name.split.1 with
        | .placeholder _ text => text
        | name => name.leafText)
  | none => return (← readIf? (·.kind == .string)).map Token.text

/-- Read the further parts of the name of a table, in a bounded number of steps.  A part
may be missing. -/
def readTableParts : (steps : Nat) → Reader (List Text)
  | 0 => pure []
  | steps + 1 => do
      if ← skipSymbol ["."] then
        let part ← grammar.readTablePart
        return part.getD [] :: (← readTableParts steps)
      else return []

/-- Read the name of a table.  The part before the last is its schema, unless there are
more than three, where it is the second. -/
def readObjectName : Reader ObjectName := do
  let first := (← grammar.readTablePart).getD []
  match ← grammar.readTableParts (← remaining) with
  | [] => return { name := first }
  | [name] => return { schema := some first, name }
  | schema :: name :: parts => return { schema := some schema, name := parts.getLastD name }

/-- Read a list of items in parentheses.  A query in parentheses is no such list. -/
def readSchema? (items : Reader (List Item)) : Reader (Option (List Item)) := do
  let inside ← peekSecond?
  if inside.any fun token => token.isSymbol ["("] || token.isWord ["SELECT", "WITH"] then
    return none
  if ← skipSymbol ["("] then
    let items ← items
    let _ ← skipSymbol [")"]
    return some items
  else return none

/-- Skip a list in parentheses, if it comes next. -/
def skipList : Reader Unit := do
  if ← skipSymbol ["("] then skipToClosing (← remaining) 0

/-- Read one part of an index: an expression, perhaps with a class of operators, and how
it is sorted. -/
def readIndexPart (hasClass : Bool) : Reader (Option Expression) := do
  let value ← grammar.readLevel .disjunction
  if hasClass then
    if !(← sees fun token => token.reads ["ASC", "DESC", "NULLS", "WITH"] ||
        token.isSymbol [",", ")"]) then
      let _ ← grammar.readObjectName
  if value.isSome then
    let _ ← skipWord ["ASC"]
    let _ ← skipWord ["DESC"]
    let _ ← skipPhrase ["NULLS", "FIRST"]
    let _ ← skipPhrase ["NULLS", "LAST"]
  if hasClass then
    if ← skipWord ["WITH"] then let _ ← skip fun _ => true
  return value

/-- Read what describes an index behind its table, and return its parts. -/
def readIndexParameters : Reader (List Expression) := do
  if ← skipWord ["USING"] then let _ ← skip Token.isUnreserved
  let parts ← if ← sees (·.isSymbol ["("]) then
      readWrapped (readSeparated (grammar.readIndexPart true))
    else pure []
  if ← skipText ["INCLUDE"] then
    let _ ← readWrapped (readSeparated (grammar.readName true))
  if ← skipWord ["PARTITION BY"] then
    let _ ← readSeparated (grammar.readLevel .disjunction)
  if ← skipWord ["WITH"] then skipList
  if ← skipPhrase ["USING", "INDEX", "TABLESPACE"] then let _ ← skip Token.isUnreserved
  if ← skipWord ["WHERE"] then let _ ← grammar.readLevel .disjunction
  if ← skipWord ["ON"] then let _ ← grammar.readField false
  return parts

/-! ## Words -/

/-- The words that start a clause. -/
def clauseWords : List String :=
  ["AUTOINCREMENT", "AUTO_INCREMENT", "CASESPECIFIC", "CHARACTER SET", "CHECK", "CLUSTERED",
   "COLLATE", "COMMENT", "COMPRESS", "DEFAULT", "ENCODE", "EPHEMERAL", "EXCLUDE", "FOREIGN KEY",
   "FORMAT", "GENERATED", "IDENTITY", "INLINE", "LIKE", "NONCLUSTERED", "NOT", "NULL", "ON",
   "PATH", "PERIOD", "PRIMARY KEY", "REFERENCES", "TITLE", "TTL", "UNIQUE", "UPPERCASE",
   "WITH"] ++
    if grammar.dialect == .mysql then ["FULLTEXT", "INDEX", "KEY", "SPATIAL", "ZEROFILL"] else []

/-- The words that start a clause of a table without a name. -/
def tableClauseWords : List String :=
  ["CHECK", "EXCLUDE", "FOREIGN KEY", "LIKE", "PERIOD", "PRIMARY KEY", "UNIQUE"] ++
    if grammar.dialect == .mysql then ["FULLTEXT", "INDEX", "KEY", "SPATIAL"] else []

/-! ## Keys and references -/

/-- Skip one option of a key. -/
def skipKeyOption : Reader Bool := do
  if ← skipWord ["ON"] then
    let _ ← skip Token.isUnreserved
    let _ ← skipAnyPhrase
      [["NO", "ACTION"], ["CASCADE"], ["RESTRICT"], ["SET", "NULL"], ["SET", "DEFAULT"]]
    return true
  skipAnyPhrase
    [["NOT", "ENFORCED"], ["MATCH", "FULL"], ["MATCH", "PARTIAL"], ["MATCH", "SIMPLE"],
     ["INITIALLY", "DEFERRED"], ["INITIALLY", "IMMEDIATE"], ["USING", "BTREE"], ["USING", "HASH"],
     ["DEFERRABLE"], ["NORELY"], ["RELY"]]

/-- Skip the options of a key. -/
def skipKeyOptions : Reader Unit := do
  skipMany skipKeyOption (← remaining)

/-- Read the target of a reference. -/
def readReference (items : Reader (List Item)) : Reader Reference := do
  let table ← grammar.readObjectName
  let _ ← skipText ["*"]
  let columns ← readSchema? items
  skipKeyOptions
  return { table, columns := (columns.getD []).map Item.firstName }

/-- Read one column of a primary key.  Some dialects sort it or cut it to a length. -/
def readKeyPart : Reader (Option Expression) := do
  match grammar.dialect with
  | .sqlserver => grammar.readIndexPart false
  | .mysql =>
      let name ← grammar.readName true
      if ← skipSymbol ["("] then
        let _ ← skip (·.kind == .number)
        let _ ← skipSymbol [")"]
      return name
  | _ => grammar.readField false

/-- Skip the name of a primary key, which only MySQL takes and where no clause starts. -/
def skipKeyName : Reader Unit := do
  let opens := (← peekSecond?).any (·.isSymbol ["("])
  let named := !(← sees (·.reads grammar.clauseWords))
  if grammar.dialect == .mysql && opens && named then let _ ← grammar.readName true

/-- Read a primary key, which may be the mark of a column. -/
def readPrimaryKey : Reader Clause := do
  let _ ← skipWord ["ASC", "DESC"]
  grammar.skipKeyName
  if ← sees (·.isSymbol ["("]) then
    let parts ← readWrapped (readSeparated grammar.readKeyPart)
    let _ ← grammar.readIndexParameters
    skipKeyOptions
    return .primaryKey (some (parts.map Expression.firstName))
  else
    skipKeyOptions
    return .primaryKey none

/-- Read a foreign key. -/
def readForeignKey (items : Reader (List Item)) : Reader Clause := do
  let columns ← if ← sees (·.isWord ["REFERENCES"]) then pure []
    else readWrapped (readSeparated (grammar.readName true))
  let target ← if ← skipWord ["REFERENCES"] then
      pure (some (← grammar.readReference items))
    else pure none
  skipMany skipAction (← remaining)
  skipKeyOptions
  return .foreignKey (columns.map Expression.leafText) target
where
  /-- Skip what happens to a foreign key on a change. -/
  skipAction : Reader Bool := do
    if ← skipWord ["ON"] then
      let _ ← skipWord ["DELETE", "UPDATE"]
      if !(← skipPhrase ["NO", "ACTION"]) then
        if ← skipWord ["SET"] then let _ ← skipWord ["NULL", "DEFAULT"]
        else let _ ← skip fun _ => true
      return true
    else return false

/-- Skip what happens on a conflict. -/
def skipOnConflict : Reader Unit := do
  if ← skipPhrase ["ON", "CONFLICT"] then
    skipList
    if !(← skipPhrase ["DO", "NOTHING"]) then
      let _ ← skipText ["ABORT", "FAIL", "IGNORE", "REPLACE", "ROLLBACK"]

/-- Read the parts of a clustered key. -/
def readClustered : Reader (List Expression) :=
  readWrapped (readSeparated (grammar.readIndexPart false))

/-- Read the name of a unique key.  In most dialects the start of a clause is no name. -/
def readUniqueName : Reader (Option Expression) := do
  match grammar.dialect with
  | .postgresql => return none
  | .sqlserver => grammar.readName false
  | _ => if ← sees (·.reads grammar.clauseWords) then return none else grammar.readName false

/-- Read a unique key.  Its name counts as its first column. -/
def readUnique (items : Reader (List Item)) : Reader Clause := do
  if grammar.dialect == .sqlserver then
    if ← skipText ["CLUSTERED", "NONCLUSTERED"] then
      let parts ← grammar.readClustered
      return .unique (namesInOrder (parts.map Expression.levels))
  else
    let _ ← skipText ["KEY", "INDEX"]
    let _ ← skipPhrase ["NULLS", "NOT", "DISTINCT"]
  let name ← grammar.readUniqueName
  let columns ← readSchema? items
  if grammar.dialect != .sqlserver then
    if ← skipWord ["USING"] then let _ ← skip Token.isUnreserved
    skipOnConflict
    skipKeyOptions
  return .unique (namesInOrder
    ((name.map Expression.levels).toList ++ (columns.getD []).map Item.levels))

/-! ## Clauses -/

/-- Read a numbering, which may have a start and a step. -/
def readNumbering : Reader Clause := do
  if ← sees (·.isSymbol ["("]) then
    let _ ← readWrapped (readSeparated grammar.readBitwise)
  else if ← skipText ["START"] then
    let _ ← grammar.readBitwise
    let _ ← skipText ["INCREMENT"]
    let _ ← grammar.readBitwise
    let _ ← skipText ["ORDER", "NOORDER"]
  return .autoIncrement

/-- Read the options of an identity behind the opening parenthesis, or a computed value. -/
def readIdentityOptions (identity : Bool) : Reader Unit := do
  let started ← skipWord ["START WITH"]
  if started then let _ ← grammar.readBitwise
  if ← skipPhrase ["INCREMENT", "BY"] then let _ ← grammar.readBitwise
  if ← skipText ["MINVALUE"] then let _ ← grammar.readBitwise
  if ← skipText ["MAXVALUE"] then let _ ← grammar.readBitwise
  if !(← skipText ["CYCLE"]) then let _ ← skipPhrase ["NO", "CYCLE"]
  if !identity then let _ ← grammar.readRange
  else if !started && (← sees (·.kind == .number)) then
    let _ ← readSeparated grammar.readBitwise
  let _ ← skipSymbol [")"]

/-- Read a generated value.  A value that is said to be computed is no identity. -/
def readGenerated : Reader Clause := do
  if ← skipPhrase ["BY", "DEFAULT"] then
    let _ ← skipAll [(·.isWord ["ON"]), (·.isWord ["NULL"])]
  else let _ ← skipText ["ALWAYS"]
  let _ ← skipWord ["AS"]
  if ← skipText ["ROW"] then
    if !(← skipText ["START"]) then let _ ← skipWord ["END"]
    let _ ← skipText ["HIDDEN"]
    return .other
  let identity ← skipText ["IDENTITY"]
  if ← skipSymbol ["("] then grammar.readIdentityOptions identity
  let computed ← match grammar.dialect with
    | .postgresql => skipText ["STORED"]
    | .mysql => skipText ["STORED", "VIRTUAL"]
    | _ => pure false
  return if computed then .other else .autoIncrement

/-- Read the options of an index inside a definition. -/
def skipIndexOption : Reader Bool := do
  if ← skipText ["KEY_BLOCK_SIZE"] then
    let _ ← skipSymbol ["="]
    let _ ← skip (·.kind == .number)
    return true
  if ← skipWord ["USING"] then
    let _ ← skip Token.isUnreserved
    return true
  if ← skipPhrase ["WITH", "PARSER"] then
    let _ ← skip Token.isUnreserved
    return true
  if ← skipWord ["COMMENT"] then
    let _ ← skip (·.kind == .string)
    return true
  skipText ["VISIBLE", "INVISIBLE"]

/-- Read an index inside a definition. -/
def readInnerIndex : Reader Clause := do
  let _ ← grammar.readName false
  if ← skipWord ["USING"] then let _ ← skip Token.isUnreserved
  let _ ← readWrapped (readSeparated (grammar.readIndexPart false))
  skipMany skipIndexOption (← remaining)
  return .other

/-- Skip the table that another one is made like. -/
def skipLike (items : Reader (List Item)) : Reader Unit := do
  let _ ← grammar.readObjectName
  let _ ← readSchema? items
  skipMany skipOption (← remaining)
where
  /-- Skip what is taken over from the other table, or not. -/
  skipOption : Reader Bool := do
    if ← skipText ["INCLUDING", "EXCLUDING"] then
      let _ ← grammar.readName true
      return true
    else return false

/-- Skip a string or any other token. -/
def skipValue : Reader Unit := do
  let _ ← skip fun token => token.kind == .string || token.isUnreserved

/-- Read a clause behind the word that starts it. -/
def readClauseBody (items : Reader (List Item)) (word : String) : Reader (Option Clause) := do
  match word with
  | "PRIMARY KEY" => return some (← grammar.readPrimaryKey)
  | "FOREIGN KEY" => return some (← grammar.readForeignKey items)
  | "UNIQUE" => return some (← grammar.readUnique items)
  | "REFERENCES" => return some (.references (← grammar.readReference items))
  | "NULL" => return some .nullable
  | "NOT" =>
      if ← skipText ["NULL"] then return some .notNull
      else if ← skipText ["CASESPECIFIC"] then return some .other
      else if ← skipPhrase ["FOR", "REPLICATION"] then return some .other
      else return none
  | "DEFAULT" =>
      let value ← grammar.readBitwise
      return some (.defaultValue (value.map (·.render grammar.dialect)))
  | "AUTOINCREMENT" | "AUTO_INCREMENT" | "IDENTITY" =>
      return some (← grammar.readNumbering)
  | "GENERATED" => return some (← grammar.readGenerated)
  | "CHECK" =>
      let _ ← readWrapped (grammar.readLevel .disjunction)
      let _ ← skipText ["ENFORCED"]
      return some .other
  | "COLLATE" =>
      if !(← skip (·.kind == .quotedName)) then let _ ← grammar.readColumn
      return some .other
  | "COMMENT" | "PATH" =>
      let _ ← skip (·.kind == .string)
      return some .other
  | "CHARACTER SET" | "FORMAT" | "TITLE" | "ENCODE" =>
      skipValue
      return some .other
  | "CLUSTERED" | "NONCLUSTERED" =>
      let _ ← grammar.readClustered
      return some .other
  | "ON" =>
      if ← skipWord ["UPDATE"] then let _ ← grammar.readFunction false false
      else let _ ← grammar.readName true
      return some .other
  | "EXCLUDE" =>
      let _ ← grammar.readIndexParameters
      return some .other
  | "LIKE" =>
      grammar.skipLike items
      return some .other
  | "WITH" | "COMPRESS" =>
      skipList
      return some .other
  | "PERIOD" =>
      if ← skipWord ["FOR SYSTEM_TIME"] then
        skipList
        return some .other
      else return none
  | "EPHEMERAL" | "INLINE" | "TTL" =>
      let _ ← skipText ["LENGTH"]
      let _ ← grammar.readBitwise
      return some .other
  | "INDEX" | "KEY" => return some (← grammar.readInnerIndex)
  | "FULLTEXT" | "SPATIAL" =>
      let _ ← skipText ["INDEX", "KEY"]
      return some (← grammar.readInnerIndex)
  | _ => return some .other

/-- Read a clause that starts with one of the given words. -/
def readClause (items : Reader (List Item)) (words : List String) : Reader (Option Clause) :=
  attempt do
    match ← readIf? (·.reads words) with
    | none => return none
    | some token => grammar.readClauseBody items (String.ofList (capitals token.text))

/-- Read a clause of a column, which may have a name. -/
def readColumnClause (items : Reader (List Item)) : Reader (Option ColumnClause) := do
  let name ← if ← skipWord ["CONSTRAINT"] then grammar.readName true else pure none
  match ← grammar.readClause items grammar.clauseWords with
  | some clause => return some clause.onColumn
  | none => return name.map fun _ => .nameOnly

/-! ## Items -/

/-- Read the computed value of a column, which may stand in place of its type. -/
def readComputed (typed : Bool) : Reader Bool := do
  let replaced ← skipWhen (!typed) (skipWord ["AS"])
  let stated ← skipWhen (!replaced) (skipText ["ALIAS", "MATERIALIZED"])
  if replaced || stated then
    let _ ← grammar.readLevel .disjunction
    let _ ← skipText ["PERSISTED"]
    if !(← skipText ["AUTO"]) then let _ ← grammar.readType false false
    let _ ← skipAll [Token.negates, (·.isWord ["NULL"])]
    return true
  let opens := (← peekSecond?).any (·.isSymbol ["("])
  if ← skipWhen (typed && opens) (skipWord ["AS"]) then
    let _ ← grammar.readLevel .disjunction
    let _ ← skipText ["STORED", "VIRTUAL"]
    return true
  return false

/-- Read a column.  What has neither a type nor clauses is only a value. -/
def readColumnItem (items : Reader (List Item)) : Reader (Option Item) := do
  let name ← grammar.readField true
  let type ← grammar.readType true false
  let computed ← grammar.readComputed type.isSome
  let clauses ← readMany (grammar.readColumnClause items) (← remaining)
  if grammar.dialect == .sqlserver then
    if ← skipSymbol ["="] then let _ ← grammar.readLevel .disjunction
  if type.isNone && !computed && clauses.isEmpty then return name.map .expression
  return some (.column (name.getD .missing) type
    (if computed then .other :: clauses else clauses))

/-- Read the clauses behind a name. -/
def readNamedClauses (items : Reader (List Item)) : Reader (List Clause) := do
  let clause : Reader (Option Clause) := do
    let found ← if ← sees (·.kind == .quotedName) then pure none
      else grammar.readClause items grammar.clauseWords
    match found with
    | some clause => return some clause
    | none => return (← grammar.readFunction false false).map fun _ => .other
  readMany clause (← remaining)

/-- Read an item: clauses with or without a name, or a column. -/
def readItem (items : Reader (List Item)) : Reader (Option Item) := do
  if ← skipWord ["CONSTRAINT"] then
    let unnamed := grammar.dialect == .mysql &&
      (← sees (·.reads ["PRIMARY KEY", "FOREIGN KEY", "UNIQUE", "CHECK"]))
    if !unnamed then let _ ← grammar.readName true
    return some (.constraint (← grammar.readNamedClauses items))
  let clause ← if ← sees (·.kind == .quotedName) then pure none
    else grammar.readClause items grammar.tableClauseWords
  match clause with
  | some clause => return some (.constraint [clause])
  | none => grammar.readColumnItem items

/-- Read the items of a list up to some depth of nesting. -/
def readItems : (depth : Nat) → Reader (List Item)
  | 0 => pure []
  | depth + 1 => readSeparated (grammar.readItem (readItems depth))

end Grammar

end SchemaNotation.Ddl
