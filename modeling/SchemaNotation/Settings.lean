import SchemaNotation.Dialect
import SchemaNotation.Layout
import SchemaNotation.ReadOptions

/-!
# Settings

The options for reading and writing can be set by variables.  `Settings.issues` checks
every variable and reports all issues together.
-/

namespace SchemaNotation

namespace Settings

/-- The variable for the indent. -/
def indent : Text := "TSSN_INDENT".toList

/-- The variable for the column at which types start. -/
def typeAlignment : Text := "TSSN_TYPE_ALIGNMENT".toList

/-- The variable for the column at which comments start. -/
def commentAlignment : Text := "TSSN_COMMENT_ALIGNMENT".toList

/-- The variable that turns the sorting of columns on or off. -/
def sortColumns : Text := "TSSN_SORT_COLUMNS".toList

/-- The variable that turns the alignment of types on or off. -/
def alignTypes : Text := "TSSN_ALIGN_TYPES".toList

/-- The variable that leaves out constraints. -/
def skipConstraints : Text := "TSSN_SKIP_CONSTRAINTS".toList

/-- The variable that leaves out annotations. -/
def skipAnnotations : Text := "TSSN_SKIP_ANNOTATIONS".toList

end Settings

/-- The options for reading that the environment sets. -/
def ReadOptions.ofEnvironment (environment : Environment) : Except SettingFault ReadOptions := do
  let skipConstraints ← environment.flag? Settings.skipConstraints
  let skipAnnotations ← environment.flag? Settings.skipAnnotations
  return {
    skipConstraints := skipConstraints.getD false
    skipAnnotations := skipAnnotations.getD false
  }

/-- A layout that the environment sets wrongly. -/
inductive LayoutError where
  | setting (fault : SettingFault)
  | invalid (faults : List Fault)
  deriving BEq, DecidableEq, Repr

/-- The layout that the environment sets.  What it does not set has its default. -/
def Layout.ofEnvironment (environment : Environment) : Except LayoutError Layout := do
  let standard : Layout := {}
  let indent ← (environment.integer? Settings.indent).mapError .setting
  let typeAlignment ← (environment.integer? Settings.typeAlignment).mapError .setting
  let commentAlignment ← (environment.integer? Settings.commentAlignment).mapError .setting
  let sortColumns ← (environment.flag? Settings.sortColumns).mapError .setting
  let alignTypes ← (environment.flag? Settings.alignTypes).mapError .setting
  (Layout.check (indent.getD standard.indent) (typeAlignment.getD standard.typeAlignment)
    (commentAlignment.getD standard.commentAlignment) (sortColumns.getD standard.sortColumns)
    (alignTypes.getD standard.alignTypes)).mapError .invalid

namespace Settings

/-- An issue with one variable, or with two of them together. -/
inductive Issue where
  | malformed (fault : SettingFault)
  | negative (name : Text) (value : Int)
  | notPositive (name : Text) (value : Int)
  | commentLeftOfType (comment type : Int)
  | dialect (fault : Dialect.Unsupported)
  deriving BEq, DecidableEq, Repr

/-- The description of an issue. -/
def Issue.message : Issue → Text
  | .malformed fault => fault.message
  | .negative name value => name ++ " must be >= 0, got ".toList ++ Integer.render value ++ ['.']
  | .notPositive name value => name ++ " must be > 0, got ".toList ++ Integer.render value ++ ['.']
  | .commentLeftOfType comment type =>
      commentAlignment ++ " must not be left of ".toList ++ typeAlignment ++ " (".toList ++
        Integer.render comment ++ " < ".toList ++ Integer.render type ++ ").".toList
  | .dialect fault => Dialect.variableName ++ ": ".toList ++ fault.message

/-- The issues of an integer variable, which must pass a test. -/
def integerIssues (environment : Environment) (name : Text) (isGood : Int → Bool)
    (issue : Text → Int → Issue) : List Issue :=
  match environment.integer? name with
  | .error fault => [.malformed fault]
  | .ok none => []
  | .ok (some value) => if isGood value then [] else [issue name value]

/-- The integer a variable holds, when it is set and can be read. -/
def readable? (environment : Environment) (name : Text) : Option Int :=
  match environment.integer? name with
  | .ok value => value
  | .error _ => none

/-- The issue of a comment column left of the type column, when both are set. -/
def alignmentIssues (environment : Environment) : List Issue :=
  match readable? environment typeAlignment, readable? environment commentAlignment with
  | some type, some comment => if comment < type then [.commentLeftOfType comment type] else []
  | _, _ => []

/-- The issues of a variable with a flag. -/
def flagIssues (environment : Environment) (name : Text) : List Issue :=
  match environment.flag? name with
  | .error fault => [.malformed fault]
  | .ok _ => []

/-- The issues of the default dialect. -/
def dialectIssues (environment : Environment) : List Issue :=
  match Dialect.resolve environment none with
  | .error fault => [.dialect fault]
  | .ok _ => []

/-- All issues of an environment, in a fixed order of the variables. -/
def issues (environment : Environment) : List Issue :=
  integerIssues environment indent (0 ≤ ·) .negative ++
    integerIssues environment typeAlignment (0 < ·) .notPositive ++
    integerIssues environment commentAlignment (0 < ·) .notPositive ++
    alignmentIssues environment ++
    [sortColumns, alignTypes, skipConstraints, skipAnnotations].flatMap
      (flagIssues environment) ++
    dialectIssues environment

/-- The report on an environment with issues. -/
def report (issues : List Issue) : Text :=
  "Invalid tssn configuration:".toList ++
    issues.flatMap fun issue => "\n- ".toList ++ issue.message

/-- Accept an environment without issues; the error is the list of all issues. -/
def validate (environment : Environment) : Except (List Issue) Unit :=
  match issues environment with
  | [] => .ok ()
  | found => .error found

end Settings

end SchemaNotation
