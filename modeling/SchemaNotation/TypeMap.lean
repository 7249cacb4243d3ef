import SchemaNotation.Dialect

/-!
# Types of the SQL dialects

Every type name of a dialect belongs to one of the base types of the notation.  The
names are kept in groups that share a base type, a format hint, and whether a declared
length is kept.  A name that a dialect does not know is a string.
-/

namespace SchemaNotation

/-- The base types of the notation. -/
inductive BaseType where
  | blob
  | boolean
  | char
  | date
  | datetime
  | decimal
  | float
  | int
  | json
  | number
  | string
  | text
  | time
  | uuid
  deriving BEq, DecidableEq, Repr

namespace BaseType

/-- All base types, in the order of their names. -/
def all : List BaseType :=
  [.blob, .boolean, .char, .date, .datetime, .decimal, .float, .int, .json, .number, .string,
   .text, .time, .uuid]

/-- The name of a base type. -/
def name : BaseType → Text
  | .blob => "blob".toList
  | .boolean => "boolean".toList
  | .char => "char".toList
  | .date => "date".toList
  | .datetime => "datetime".toList
  | .decimal => "decimal".toList
  | .float => "float".toList
  | .int => "int".toList
  | .json => "json".toList
  | .number => "number".toList
  | .string => "string".toList
  | .text => "text".toList
  | .time => "time".toList
  | .uuid => "uuid".toList

end BaseType

/-- Type names that are mapped alike. -/
structure TypeGroup where
  base : BaseType
  names : List String
  format : Option String := none
  keepsLength : Bool := false
  deriving BEq, DecidableEq, Repr

/-- The base type for a declared type, with what is kept of the declaration. -/
structure MappedType where
  base : BaseType
  length : Option Int := none
  isArray : Bool := false
  format : Option Text := none
  deriving BEq, DecidableEq, Repr

namespace Dialect

/-- The type names of SQL Server. -/
def sqlserverTypes : List TypeGroup :=
  [{ base := .int, names := ["tinyint", "smallint", "int", "bigint"] },
   { base := .decimal, names := ["decimal", "numeric", "money", "smallmoney"] },
   { base := .float, names := ["float", "real"] },
   { base := .char, names := ["char", "nchar"], keepsLength := true },
   { base := .string, names := ["varchar", "nvarchar"], keepsLength := true },
   { base := .text, names := ["text", "ntext"] },
   { base := .date, names := ["date"] },
   { base := .time, names := ["time"] },
   { base := .datetime, names := ["datetime", "datetime2", "smalldatetime"] },
   { base := .datetime, names := ["datetimeoffset"], format := "tz" },
   { base := .boolean, names := ["bit"] },
   { base := .uuid, names := ["uniqueidentifier"] },
   { base := .json, names := ["json"] },
   { base := .text, names := ["xml"], format := "xml" },
   { base := .blob, names := ["varbinary", "binary", "image", "rowversion", "timestamp"] },
   { base := .string, names := ["geography", "geometry"], format := "wkt" },
   { base := .string, names := ["hierarchyid"], format := "hierarchyid" },
   { base := .string, names := ["sql_variant"] }]

/-- The type names of PostgreSQL. -/
def postgresqlTypes : List TypeGroup :=
  [{ base := .int, names := ["smallint", "int2", "int", "integer", "int4", "bigint", "int8",
      "serial", "smallserial", "bigserial"] },
   { base := .decimal, names := ["numeric", "decimal", "money"] },
   { base := .float, names := ["real", "float4", "double precision", "float8"] },
   { base := .string, names := ["character varying", "varchar"], keepsLength := true },
   { base := .char, names := ["character", "char"], keepsLength := true },
   { base := .text, names := ["text"] },
   { base := .datetime, names := ["timestamp", "timestamp without time zone"] },
   { base := .datetime, names := ["timestamp with time zone", "timestamptz"], format := "tz" },
   { base := .date, names := ["date"] },
   { base := .time, names := ["time without time zone", "time"] },
   { base := .time, names := ["time with time zone", "timetz"], format := "tz" },
   { base := .string, names := ["interval"], format := "interval" },
   { base := .boolean, names := ["boolean", "bool"] },
   { base := .blob, names := ["bytea"] },
   { base := .uuid, names := ["uuid"] },
   { base := .json, names := ["json", "jsonb", "hstore"] },
   { base := .text, names := ["xml"], format := "xml" },
   { base := .string, names := ["tsvector"], format := "tsvector" },
   { base := .string, names := ["tsquery"], format := "tsquery" },
   { base := .string, names := ["cidr", "inet"], format := "cidr" },
   { base := .string, names := ["macaddr", "macaddr8"], format := "mac" },
   { base := .string, names := ["bit", "bit varying", "varbit"], format := "bits" },
   { base := .string, names := ["point", "line", "lseg", "box", "path", "polygon", "circle",
      "geography", "geometry"], format := "wkt" }]

/-- The type names of MySQL. -/
def mysqlTypes : List TypeGroup :=
  [{ base := .int, names := ["tinyint", "smallint", "mediumint", "int", "integer", "bigint",
      "year"] },
   { base := .decimal, names := ["decimal", "numeric"] },
   { base := .float, names := ["float", "double", "double precision", "real"] },
   { base := .char, names := ["char"], keepsLength := true },
   { base := .string, names := ["varchar"], keepsLength := true },
   { base := .text, names := ["tinytext", "text", "mediumtext", "longtext"] },
   { base := .blob, names := ["binary", "varbinary", "tinyblob", "blob", "mediumblob",
      "longblob"] },
   { base := .date, names := ["date"] },
   { base := .time, names := ["time"] },
   { base := .datetime, names := ["datetime", "timestamp"] },
   { base := .json, names := ["json"] },
   { base := .string, names := ["bit"], format := "bits" },
   { base := .string, names := ["geometry", "point", "linestring", "polygon", "multipoint",
      "multilinestring", "multipolygon", "geometrycollection"], format := "wkt" }]

/-- The type names of Oracle, where a date has a time of day. -/
def oracleTypes : List TypeGroup :=
  [{ base := .number, names := ["number"] },
   { base := .float, names := ["binary_float", "binary_double"] },
   { base := .string, names := ["varchar2", "nvarchar2"], keepsLength := true },
   { base := .char, names := ["char", "nchar"], keepsLength := true },
   { base := .text, names := ["clob", "nclob", "long"] },
   { base := .datetime, names := ["date", "timestamp"] },
   { base := .datetime, names := ["timestamp with time zone", "timestamp with local time zone"],
     format := "tz" },
   { base := .string, names := ["interval year to month", "interval day to second"],
     format := "interval" },
   { base := .boolean, names := ["boolean"] },
   { base := .blob, names := ["raw", "long raw", "blob", "bfile"] },
   { base := .json, names := ["json"] },
   { base := .text, names := ["xmltype"], format := "xml" },
   { base := .string, names := ["rowid", "urowid"] },
   { base := .string, names := ["sdo_geometry"], format := "wkt" }]

/-- The type names commonly declared in SQLite. -/
def sqliteTypes : List TypeGroup :=
  [{ base := .int, names := ["int", "integer", "tinyint", "smallint", "mediumint", "bigint",
      "int2", "int8"] },
   { base := .float, names := ["real", "double", "double precision", "float"] },
   { base := .text, names := ["text", "clob"] },
   { base := .blob, names := ["blob"] },
   { base := .string, names := ["varchar", "character varying", "nvarchar"], keepsLength := true },
   { base := .char, names := ["char", "character", "nchar"], keepsLength := true },
   { base := .boolean, names := ["boolean"] },
   { base := .date, names := ["date"] },
   { base := .datetime, names := ["datetime", "timestamp"] },
   { base := .decimal, names := ["decimal", "numeric"] },
   { base := .json, names := ["json"] }]

/-- The type names of a dialect. -/
def types : Dialect → List TypeGroup
  | .sqlserver => sqlserverTypes
  | .postgresql => postgresqlTypes
  | .mysql => mysqlTypes
  | .oracle => oracleTypes
  | .sqlite => sqliteTypes

/-- Whether a leading underscore marks an array type. -/
def hasUnderscoreArrays (dialect : Dialect) : Bool :=
  dialect == .postgresql

/-- The length that stands for the greatest possible one. -/
def maxLength : Int := -1

/-- The base type of the declarations that their name alone does not decide: a one-digit
`tinyint` of MySQL is a flag, the longest strings of SQL Server are texts, and an
Oracle `number` with a precision is an integer unless it has decimal places. -/
def exception? (dialect : Dialect) (name : Text) (length scale : Option Int) : Option BaseType :=
  match dialect with
  | .mysql => if name = "tinyint".toList ∧ length = some 1 then some .boolean else none
  | .sqlserver =>
      if (name = "varchar".toList ∨ name = "nvarchar".toList) ∧ length = some maxLength then
        some .text
      else none
  | .oracle =>
      if name = "number".toList ∧ length.isSome then
        if scale.any (0 < ·) then some .decimal else some .int
      else none
  | _ => none

/-- The name of the element type, in lower case, and whether the type is an array. -/
def elementName (dialect : Dialect) (type : Text) : Text × Bool :=
  let name := Text.lower (Text.trim type)
  match Text.before? "[]".toList name, name with
  | some element, _ => (Text.trimRight element, true)
  | none, '_' :: element => if dialect.hasUnderscoreArrays then (element, true) else (name, false)
  | none, _ => (name, false)

/-- Map a type name with its declared length and scale. -/
def mapType (dialect : Dialect) (type : Text) (length scale : Option Int) : MappedType :=
  let (name, isArray) := dialect.elementName type
  match dialect.exception? name length scale with
  | some base => { base, isArray }
  | none =>
      match dialect.types.find? fun group => group.names.any (·.toList == name) with
      | none => { base := .string, isArray }
      | some group =>
          { base := group.base
            length := if group.keepsLength then length else none
            isArray
            format := group.format.map String.toList }

/-- Map a type of the dialect with the given name. -/
def mapNamed (environment : Environment) (name? : Option Text) (type : Text)
    (length scale : Option Int) : Except Unsupported MappedType :=
  (resolve environment name?).map fun dialect => dialect.mapType type length scale

end Dialect

end SchemaNotation
