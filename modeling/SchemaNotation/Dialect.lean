import SchemaNotation.Environment

/-!
# SQL dialects

The supported dialects, the names by which they are known, and the dialect that is
meant when none is named.
-/

namespace SchemaNotation

/-- A supported dialect of SQL. -/
inductive Dialect where
  | sqlserver
  | postgresql
  | mysql
  | oracle
  | sqlite
  deriving BEq, DecidableEq, Repr

namespace Dialect

/-- All dialects. -/
def all : List Dialect :=
  [.sqlserver, .postgresql, .mysql, .oracle, .sqlite]

/-- The name of a dialect. -/
def name : Dialect → Text
  | .sqlserver => "sqlserver".toList
  | .postgresql => "postgresql".toList
  | .mysql => "mysql".toList
  | .oracle => "oracle".toList
  | .sqlite => "sqlite".toList

/-- The short name of a dialect, by which statement readers know it. -/
def readerName : Dialect → Text
  | .sqlserver => "tsql".toList
  | .postgresql => "postgres".toList
  | .mysql => "mysql".toList
  | .oracle => "oracle".toList
  | .sqlite => "sqlite".toList

/-- The names a dialect goes by, in lower case. -/
def aliases : Dialect → List Text
  | .sqlserver => ["sqlserver", "sql server", "mssql", "tsql"].map String.toList
  | .postgresql => ["postgresql", "postgres", "pg"].map String.toList
  | .mysql => ["mysql", "mariadb"].map String.toList
  | .oracle => ["oracle"].map String.toList
  | .sqlite => ["sqlite", "sqlite3"].map String.toList

/-- The dialect with the given alias, in any case and with blanks around it. -/
def ofAlias? (name : Text) : Option Dialect :=
  let key := Text.lower (Text.trim name)
  all.find? fun dialect => dialect.aliases.contains key

/-- A name that belongs to no dialect. -/
structure Unsupported where
  name : Text
  deriving BEq, DecidableEq, Repr

/-- The complaint about an unknown name. -/
def Unsupported.message (fault : Unsupported) : Text :=
  "Unsupported dialect '".toList ++ fault.name ++
    "'. Must be one of ['mysql', 'oracle', 'postgresql', 'sqlite', 'sqlserver'].".toList

/-- The variable that names the default dialect. -/
def variableName : Text := "TSSN_DEFAULT_DIALECT".toList

/-- The name of the dialect that is meant when none is given. -/
def defaultName (environment : Environment) : Text :=
  match environment.get? variableName with
  | some (c :: name) => c :: name
  | _ => postgresql.name

/-- The dialect with the given name.  A missing or blank name means the default. -/
def resolve (environment : Environment) (name : Option Text) : Except Unsupported Dialect :=
  let name := (name.filter fun name => !Text.isAllBlank name).getD (defaultName environment)
  match ofAlias? name with
  | some dialect => .ok dialect
  | none => .error ⟨name⟩

end Dialect

end SchemaNotation
