import Mathlib.Tactic.MkIffOfInductiveProp
import SchemaNotation.Proofs.Outcome
import SchemaNotation.Proofs.Text
import SchemaNotation.Settings

/-!
# Checked settings

Every variable has at most one issue of its own, and its value alone decides which.  One
more issue belongs to two variables together.  An environment that has none of them can
be used: the options, the layout and the default dialect can all be read from it.
-/

namespace SchemaNotation

/-! ## Values of variables -/

theorem Text.trim_of_isAllBlank {text : Text} (blank : isAllBlank text = true) : trim text = [] := by
  rw [trim, trimLeft, List.dropWhile_eq_nil_iff.mpr (List.all_eq_true.mp blank)]
  rfl

namespace Environment

variable {environment : Environment} {name : Text}

theorem present?_eq_some_iff {value : Text} :
    environment.present? name = some value ↔
      environment.get? name = some value ∧ Text.isAllBlank value = false := by
  rw [present?, Option.filter_eq_some_iff, Bool.not_eq_true']

/-- A blank text is no integer. -/
theorem not_isAllBlank_of_read? {value : Text} {number : Int}
    (read : Integer.read? (Text.trim value) = some number) : Text.isAllBlank value = false := by
  rw [← Bool.not_eq_true]
  intro blank
  rw [Text.trim_of_isAllBlank blank] at read
  cases read

/-- The outcome of reading an integer: the variable is not set or blank, its value is an
integer, or its value is none. -/
theorem integer?_eq_ok_some_iff {number : Int} :
    environment.integer? name = .ok (some number) ↔
      ∃ value, environment.get? name = some value ∧
        Integer.read? (Text.trim value) = some number := by
  constructor
  · intro found
    rw [integer?] at found
    split at found
    · cases found
    · next value present =>
        split at found
        · next read =>
            cases found
            exact ⟨value, (present?_eq_some_iff.mp present).1, read⟩
        · cases found
  · rintro ⟨value, set, read⟩
    have present := present?_eq_some_iff.mpr ⟨set, not_isAllBlank_of_read? read⟩
    simp only [integer?, present, read]

theorem integer?_eq_error_iff {fault : SettingFault} :
    environment.integer? name = .error fault ↔
      ∃ value, environment.get? name = some value ∧ Text.isAllBlank value = false ∧
        Integer.read? (Text.trim value) = none ∧ fault = .notInteger name value := by
  constructor
  · intro failed
    rw [integer?] at failed
    split at failed
    · cases failed
    · next value present =>
        obtain ⟨set, filled⟩ := present?_eq_some_iff.mp present
        split at failed
        · cases failed
        · next unreadable =>
            cases failed
            exact ⟨value, set, filled, unreadable, rfl⟩
  · rintro ⟨value, set, filled, unreadable, rfl⟩
    have present := present?_eq_some_iff.mpr ⟨set, filled⟩
    simp only [integer?, present, unreadable]

theorem flag?_eq_error_iff {fault : SettingFault} :
    environment.flag? name = .error fault ↔
      ∃ value, environment.get? name = some value ∧ Text.isAllBlank value = false ∧
        Text.lower (Text.trim value) ∉ trueWords ++ falseWords ∧
        fault = .notBoolean name value := by
  constructor
  · intro failed
    rw [flag?] at failed
    split at failed
    · cases failed
    · next value present =>
        obtain ⟨set, filled⟩ := present?_eq_some_iff.mp present
        dsimp only at failed
        split at failed
        · cases failed
        · split at failed
          · cases failed
          · next noTrue noFalse =>
              cases failed
              rw [List.contains_iff_mem] at noTrue noFalse
              exact ⟨value, set, filled, by simp [noTrue, noFalse], rfl⟩
  · rintro ⟨value, set, filled, unknown, rfl⟩
    have present := present?_eq_some_iff.mpr ⟨set, filled⟩
    rw [List.mem_append, not_or] at unknown
    simp [flag?, present, unknown]

end Environment

namespace Dialect

theorem ofAlias?_eq_none_iff {name : Text} :
    ofAlias? name = none ↔ ∀ dialect : Dialect, Text.lower (Text.trim name) ∉ dialect.aliases := by
  have complete : ∀ dialect : Dialect, dialect ∈ all := by
    intro dialect
    cases dialect <;> simp [all]
  simp [ofAlias?, complete]

/-- A value of the variable that is not empty names the default dialect. -/
theorem defaultName_cases (environment : Environment) :
    (defaultName environment = postgresql.name ∧
      ∀ value, environment.get? variableName = some value → value = []) ∨
    environment.get? variableName = some (defaultName environment) ∧
      defaultName environment ≠ [] := by
  cases set : environment.get? variableName with
  | none => simp [defaultName, set]
  | some value => cases value <;> simp [defaultName, set]

/-- No default dialect can be found only when the variable names an unknown one. -/
theorem resolve_none_eq_error_iff {environment : Environment} {fault : Unsupported} :
    resolve environment none = .error fault ↔
      ∃ value, environment.get? variableName = some value ∧ value ≠ [] ∧
        (∀ dialect : Dialect, Text.lower (Text.trim value) ∉ dialect.aliases) ∧
        fault = ⟨value⟩ := by
  have standard : ofAlias? postgresql.name = some postgresql := by
    decide
  have shape : resolve environment none =
      (ofAlias? (defaultName environment)).elim (.error ⟨defaultName environment⟩) .ok := by
    dsimp only [resolve, Option.filter_none, Option.getD_none]
    cases ofAlias? (defaultName environment) <;> rfl
  rw [shape]
  rcases defaultName_cases environment with ⟨same, empty⟩ | ⟨set, filled⟩
  · rw [same, standard]
    constructor
    · intro failed
      cases failed
    · rintro ⟨value, set, filled, _⟩
      exact (filled (empty value set)).elim
  · constructor
    · intro failed
      cases known : ofAlias? (defaultName environment) with
      | some dialect =>
          rw [known] at failed
          cases failed
      | none =>
          rw [known] at failed
          cases failed
          exact ⟨_, set, filled, ofAlias?_eq_none_iff.mp known, rfl⟩
    · rintro ⟨value, same, _, unknown, rfl⟩
      rw [Option.some.inj (set.symm.trans same), ofAlias?_eq_none_iff.mpr unknown]
      rfl

end Dialect

/-! ## Settings -/

/-- A variable that is checked. -/
inductive Setting where
  | indent
  | typeAlignment
  | commentAlignment
  | sortColumns
  | alignTypes
  | skipConstraints
  | skipAnnotations
  | defaultDialect
  deriving DecidableEq, Repr

namespace Setting

/-- The name of the variable. -/
def name : Setting → Text
  | .indent => Settings.indent
  | .typeAlignment => Settings.typeAlignment
  | .commentAlignment => Settings.commentAlignment
  | .sortColumns => Settings.sortColumns
  | .alignTypes => Settings.alignTypes
  | .skipConstraints => Settings.skipConstraints
  | .skipAnnotations => Settings.skipAnnotations
  | .defaultDialect => Dialect.variableName

/-- The settings that are columns. -/
def alignments : List Setting :=
  [.typeAlignment, .commentAlignment]

/-- The settings that are integers, in the order of the report. -/
def widths : List Setting :=
  .indent :: alignments

/-- The settings that are flags, in the order of the report. -/
def flags : List Setting :=
  [.sortColumns, .alignTypes, .skipConstraints, .skipAnnotations]

/-- What is wrong with the value of a setting, whatever the other ones have. -/
@[mk_iff]
inductive Flaw (setting : Setting) (value : Text) : Settings.Issue → Prop where
  | notInteger (isWidth : setting ∈ widths) (filled : Text.isAllBlank value = false)
      (unreadable : Integer.read? (Text.trim value) = none) :
      Flaw setting value (.malformed (.notInteger setting.name value))
  | negative {number : Int} (isIndent : setting = .indent)
      (read : Integer.read? (Text.trim value) = some number) (below : number < 0) :
      Flaw setting value (.negative setting.name number)
  | notPositive {number : Int} (aligns : setting ∈ alignments)
      (read : Integer.read? (Text.trim value) = some number) (low : number ≤ 0) :
      Flaw setting value (.notPositive setting.name number)
  | notBoolean (isFlag : setting ∈ flags) (filled : Text.isAllBlank value = false)
      (unknown : Text.lower (Text.trim value) ∉
        Environment.trueWords ++ Environment.falseWords) :
      Flaw setting value (.malformed (.notBoolean setting.name value))
  | unsupported (isDialect : setting = .defaultDialect) (filled : value ≠ [])
      (unknown : ∀ dialect : Dialect, Text.lower (Text.trim value) ∉ dialect.aliases) :
      Flaw setting value (.dialect ⟨value⟩)

/-- The issues that the check finds with a setting. -/
def issues (environment : Environment) : Setting → List Settings.Issue
  | .indent => Settings.integerIssues environment Settings.indent (0 ≤ ·) .negative
  | .typeAlignment =>
      Settings.integerIssues environment Settings.typeAlignment (0 < ·) .notPositive
  | .commentAlignment =>
      Settings.integerIssues environment Settings.commentAlignment (0 < ·) .notPositive
  | .sortColumns => Settings.flagIssues environment Settings.sortColumns
  | .alignTypes => Settings.flagIssues environment Settings.alignTypes
  | .skipConstraints => Settings.flagIssues environment Settings.skipConstraints
  | .skipAnnotations => Settings.flagIssues environment Settings.skipAnnotations
  | .defaultDialect => Settings.dialectIssues environment

end Setting

namespace Settings

variable {environment : Environment} {name : Text} {issue : Issue}

theorem mem_integerIssues {isGood : Int → Bool} {complaint : Text → Int → Issue} :
    issue ∈ integerIssues environment name isGood complaint ↔
      ∃ value, environment.get? name = some value ∧
        ((Text.isAllBlank value = false ∧ Integer.read? (Text.trim value) = none ∧
            issue = .malformed (.notInteger name value)) ∨
          ∃ number, Integer.read? (Text.trim value) = some number ∧ isGood number = false ∧
            issue = complaint name number) := by
  rw [integerIssues]
  split
  · next fault failed =>
      obtain ⟨value, set, filled, unreadable, rfl⟩ := Environment.integer?_eq_error_iff.mp failed
      simp [set, filled, unreadable]
  · next absent =>
      constructor
      · intro member
        cases member
      · rintro ⟨value, set, ⟨filled, unreadable, _⟩ | ⟨number, read, _⟩⟩
        · have failed := Environment.integer?_eq_error_iff.mpr ⟨value, set, filled, unreadable, rfl⟩
          rw [absent] at failed
          cases failed
        · have found := Environment.integer?_eq_ok_some_iff.mpr ⟨value, set, read⟩
          rw [absent] at found
          cases found
  · next number found =>
      obtain ⟨value, set, read⟩ := Environment.integer?_eq_ok_some_iff.mp found
      cases good : isGood number <;> simp [set, read, good]

theorem mem_flagIssues :
    issue ∈ flagIssues environment name ↔
      ∃ value, environment.get? name = some value ∧ Text.isAllBlank value = false ∧
        Text.lower (Text.trim value) ∉ Environment.trueWords ++ Environment.falseWords ∧
        issue = .malformed (.notBoolean name value) := by
  have known : issue ∈ flagIssues environment name ↔
      ∃ fault, environment.flag? name = .error fault ∧ issue = .malformed fault := by
    rw [flagIssues]
    cases environment.flag? name <;> simp
  rw [known]
  constructor
  · rintro ⟨fault, failed, rfl⟩
    obtain ⟨value, set, filled, unknown, rfl⟩ := Environment.flag?_eq_error_iff.mp failed
    exact ⟨value, set, filled, unknown, rfl⟩
  · rintro ⟨value, set, filled, unknown, rfl⟩
    exact ⟨_, Environment.flag?_eq_error_iff.mpr ⟨value, set, filled, unknown, rfl⟩, rfl⟩

theorem mem_dialectIssues :
    issue ∈ dialectIssues environment ↔
      ∃ value, environment.get? Dialect.variableName = some value ∧ value ≠ [] ∧
        (∀ dialect : Dialect, Text.lower (Text.trim value) ∉ dialect.aliases) ∧
        issue = .dialect ⟨value⟩ := by
  have known : issue ∈ dialectIssues environment ↔
      ∃ fault, Dialect.resolve environment none = .error fault ∧ issue = .dialect fault := by
    rw [dialectIssues]
    cases Dialect.resolve environment none <;> simp
  rw [known]
  constructor
  · rintro ⟨fault, failed, rfl⟩
    obtain ⟨value, set, filled, unknown, rfl⟩ := Dialect.resolve_none_eq_error_iff.mp failed
    exact ⟨value, set, filled, unknown, rfl⟩
  · rintro ⟨value, set, filled, unknown, rfl⟩
    exact ⟨_, Dialect.resolve_none_eq_error_iff.mpr ⟨value, set, filled, unknown, rfl⟩, rfl⟩

end Settings

namespace Setting

variable {environment : Environment} {setting : Setting} {issue : Settings.Issue}

theorem length_issues_le (environment : Environment) (setting : Setting) :
    (setting.issues environment).length ≤ 1 := by
  cases setting <;> dsimp only [issues, Settings.integerIssues, Settings.flagIssues,
    Settings.dialectIssues]
  all_goals
    repeat' split
  all_goals simp

/-- The check finds with a setting what is wrong with its value. -/
theorem mem_issues :
    issue ∈ setting.issues environment ↔
      ∃ value, environment.get? setting.name = some value ∧ setting.Flaw value issue := by
  cases setting with
  | indent =>
      simp [issues, name, Settings.mem_integerIssues, flaw_iff, widths, alignments, flags]
  | typeAlignment | commentAlignment =>
      simp [issues, name, Settings.mem_integerIssues, flaw_iff, widths, alignments, flags]
  | sortColumns | alignTypes | skipConstraints | skipAnnotations =>
      simp [issues, name, Settings.mem_flagIssues, flaw_iff, widths, alignments, flags]
  | defaultDialect =>
      simp [issues, name, Settings.mem_dialectIssues, flaw_iff, widths, alignments, flags]

/-- The setting is set to a text that is read as the integer. -/
def Holds (environment : Environment) (setting : Setting) (number : Int) : Prop :=
  ∃ value, environment.get? setting.name = some value ∧
    Integer.read? (Text.trim value) = some number

end Setting

namespace Settings

variable {environment : Environment} {name : Text} {issue : Issue}

/-! ## All issues -/

theorem readable?_eq_some_iff {number : Int} :
    readable? environment name = some number ↔
      environment.integer? name = .ok (some number) := by
  rw [readable?]
  cases environment.integer? name <;> simp

theorem mem_alignmentIssues :
    issue ∈ alignmentIssues environment ↔
      ∃ comment type, Setting.Holds environment .commentAlignment comment ∧
        Setting.Holds environment .typeAlignment type ∧ comment < type ∧
        issue = .commentLeftOfType comment type := by
  have holds : ∀ setting number, Setting.Holds environment setting number ↔
      readable? environment setting.name = some number := by
    intro setting number
    rw [readable?_eq_some_iff, Environment.integer?_eq_ok_some_iff, Setting.Holds]
  simp only [holds, Setting.name]
  rw [alignmentIssues]
  cases readable? environment typeAlignment with
  | none => simp
  | some type =>
      cases readable? environment commentAlignment with
      | none => simp
      | some comment =>
          by_cases left : comment < type <;> simp [left]

theorem length_alignmentIssues_le (environment : Environment) :
    (alignmentIssues environment).length ≤ 1 := by
  rw [alignmentIssues]
  repeat' split
  all_goals simp

theorem issues_eq (environment : Environment) :
    issues environment =
      Setting.widths.flatMap (Setting.issues environment) ++ alignmentIssues environment ++
        Setting.flags.flatMap (Setting.issues environment) ++
        Setting.issues environment .defaultDialect := by
  simp [issues, Setting.widths, Setting.alignments, Setting.flags, Setting.issues]

/-! ## Environments without issues -/

theorem exists_integer?_eq_ok {isGood : Int → Bool} {complaint : Text → Int → Issue}
    (sound : integerIssues environment name isGood complaint = []) :
    ∃ number?, environment.integer? name = .ok number? ∧
      ∀ number ∈ number?, isGood number = true := by
  rw [integerIssues] at sound
  split at sound
  · cases sound
  · next absent => exact ⟨none, absent, by simp⟩
  · next number found =>
      split at sound
      · next good => exact ⟨some number, found, by simpa using good⟩
      · cases sound

theorem exists_flag?_eq_ok (sound : flagIssues environment name = []) :
    ∃ flag?, environment.flag? name = .ok flag? := by
  rw [flagIssues] at sound
  split at sound
  · cases sound
  · next flag? found => exact ⟨flag?, found⟩

theorem exists_resolve_eq_ok (sound : dialectIssues environment = []) :
    ∃ dialect, Dialect.resolve environment none = .ok dialect := by
  rw [dialectIssues] at sound
  split at sound
  · cases sound
  · next dialect found => exact ⟨dialect, found⟩

end Settings

theorem Layout.exists_check_eq_ok {indent typeAlignment commentAlignment : Int}
    (indentLow : 0 ≤ indent) (typeLow : 0 ≤ typeAlignment) (commentLow : 0 ≤ commentAlignment)
    (sortColumns alignTypes : Bool) :
    ∃ layout,
      check indent typeAlignment commentAlignment sortColumns alignTypes = .ok layout := by
  obtain ⟨indent, rfl⟩ := Int.eq_ofNat_of_zero_le indentLow
  obtain ⟨typeAlignment, rfl⟩ := Int.eq_ofNat_of_zero_le typeLow
  obtain ⟨commentAlignment, rfl⟩ := Int.eq_ofNat_of_zero_le commentLow
  exact ⟨{ indent, typeAlignment, commentAlignment, sortColumns, alignTypes }, rfl⟩

section Sound

variable {environment : Environment}
  (sound : ∀ setting : Setting, setting.issues environment = [])

include sound

theorem ReadOptions.exists_ofEnvironment :
    ∃ options, ReadOptions.ofEnvironment environment = .ok options := by
  obtain ⟨constraints, readConstraints⟩ := Settings.exists_flag?_eq_ok (sound .skipConstraints)
  obtain ⟨annotations, readAnnotations⟩ := Settings.exists_flag?_eq_ok (sound .skipAnnotations)
  rw [ofEnvironment, readConstraints, readAnnotations]
  exact ⟨_, rfl⟩

theorem Layout.exists_ofEnvironment :
    ∃ layout, Layout.ofEnvironment environment = .ok layout := by
  obtain ⟨indent, readIndent, indentGood⟩ := Settings.exists_integer?_eq_ok (sound .indent)
  obtain ⟨type, readType, typeGood⟩ := Settings.exists_integer?_eq_ok (sound .typeAlignment)
  obtain ⟨comment, readComment, commentGood⟩ :=
    Settings.exists_integer?_eq_ok (sound .commentAlignment)
  obtain ⟨sort, readSort⟩ := Settings.exists_flag?_eq_ok (sound .sortColumns)
  obtain ⟨align, readAlign⟩ := Settings.exists_flag?_eq_ok (sound .alignTypes)
  have indentLow : 0 ≤ indent.getD 2 := by
    cases indent with
    | none => decide
    | some number => simpa using indentGood number rfl
  have typeLow : 0 ≤ type.getD 25 := by
    cases type with
    | none => decide
    | some number => exact Int.le_of_lt (by simpa using typeGood number rfl)
  have commentLow : 0 ≤ comment.getD 45 := by
    cases comment with
    | none => decide
    | some number => exact Int.le_of_lt (by simpa using commentGood number rfl)
  obtain ⟨layout, checked⟩ := exists_check_eq_ok indentLow typeLow commentLow (sort.getD true)
    (align.getD false)
  refine ⟨layout, ?_⟩
  rw [ofEnvironment, readIndent, readType, readComment, readSort, readAlign]
  exact congrArg (Except.mapError LayoutError.invalid) checked

end Sound

namespace Settings

/-- A list with at most one item is its first one. -/
theorem eq_head?_of_length_le {α : Type} {items : List α} (few : items.length ≤ 1) :
    items = items.head?.toList := by
  match items with
  | [] | [_] => rfl
  | _ :: _ :: _ => simp at few

theorem head?_eq_some_iff_mem {α : Type} {items : List α} (few : items.length ≤ 1) {item : α} :
    items.head? = some item ↔ item ∈ items := by
  conv_rhs => rw [eq_head?_of_length_le few]
  exact Option.mem_toList.symm

theorem issues_of_validate_ok (valid : validate environment = .ok ()) :
    issues environment = [] := by
  rw [validate] at valid
  split at valid
  · assumption
  · cases valid

theorem issues_of_validate_error {found : List Issue}
    (failed : validate environment = .error found) : issues environment = found := by
  rw [validate] at failed
  split at failed
  · cases failed
  · exact Except.error.inj failed

/-- Without any issue, no setting has one. -/
theorem setting_issues_of_issues (clear : issues environment = []) (setting : Setting) :
    setting.issues environment = [] := by
  rw [issues_eq] at clear
  simp only [List.append_eq_nil_iff, List.flatMap_eq_nil_iff] at clear
  obtain ⟨⟨⟨widths, _⟩, flags⟩, dialect⟩ := clear
  cases setting with
  | indent | typeAlignment | commentAlignment => exact widths _ (by decide)
  | sortColumns | alignTypes | skipConstraints | skipAnnotations => exact flags _ (by decide)
  | defaultDialect => exact dialect

/-- The issues of several settings are one for each that has any. -/
theorem flatMap_issues (environment : Environment) (settings : List Setting) :
    settings.flatMap (Setting.issues environment) =
      settings.filterMap fun setting => (setting.issues environment).head? := by
  rw [List.filterMap_eq_flatMap_toList]
  exact List.flatMap_congr fun setting _ =>
    eq_head?_of_length_le (Setting.length_issues_le environment setting)

/-- The check reports all issues, in the order of the settings: what is wrong with the
value of each setting on its own, and comments that start left of types when both
alignments are integers.  An environment that passes the check can be used. -/
theorem reports_every_issue (environment : Environment) :
    (validate environment = .ok () →
      (∃ options, ReadOptions.ofEnvironment environment = .ok options) ∧
      (∃ layout, Layout.ofEnvironment environment = .ok layout) ∧
      ∃ dialect, Dialect.resolve environment none = .ok dialect) ∧
    ∀ found, validate environment = .error found →
      ∃ (own : Setting → Option Issue) (left : Option Issue),
        (∀ setting issue, own setting = some issue ↔
          ∃ value, environment.get? setting.name = some value ∧ setting.Flaw value issue) ∧
        (∀ issue, left = some issue ↔
          ∃ comment type, Setting.Holds environment .commentAlignment comment ∧
            Setting.Holds environment .typeAlignment type ∧ comment < type ∧
            issue = .commentLeftOfType comment type) ∧
        found = Setting.widths.filterMap own ++ left.toList ++ Setting.flags.filterMap own ++
          (own .defaultDialect).toList := by
  constructor
  · intro valid
    have sound := setting_issues_of_issues (issues_of_validate_ok valid)
    exact ⟨ReadOptions.exists_ofEnvironment sound, Layout.exists_ofEnvironment sound,
      exists_resolve_eq_ok (sound .defaultDialect)⟩
  · intro found failed
    have few := Setting.length_issues_le environment
    have fewAlignment := length_alignmentIssues_le environment
    refine ⟨fun setting => (setting.issues environment).head?, (alignmentIssues environment).head?,
      ?_, ?_, ?_⟩
    · intro setting issue
      rw [head?_eq_some_iff_mem (few setting), Setting.mem_issues]
    · intro issue
      rw [head?_eq_some_iff_mem fewAlignment, mem_alignmentIssues]
    · rw [← issues_of_validate_error failed, issues_eq, flatMap_issues, flatMap_issues,
        ← eq_head?_of_length_le fewAlignment, ← eq_head?_of_length_le (few .defaultDialect)]

section Variables

/-- Settings with blanks, a sign, an underscore and digits of another script. -/
def soundSettings : Environment :=
  [(indent, " 0 ".toList), (typeAlignment, "+1_0".toList), (commentAlignment, "٢٠".toList),
    (sortColumns, "\tYES".toList), (skipConstraints, "  ".toList),
    (Dialect.variableName, "PG ".toList)]

/-- Settings with an issue of each kind but one. -/
def faultySettings : Environment :=
  [(Dialect.variableName, "db2".toList), (alignTypes, "maybe".toList),
    (commentAlignment, "-20".toList), (typeAlignment, "30".toList), (indent, "2.5".toList)]

/-- The issues that are reported for them. -/
def faultyIssues : List Issue :=
  [.malformed (.notInteger indent "2.5".toList), .notPositive commentAlignment (-20),
    .commentLeftOfType (-20) 30, .malformed (.notBoolean alignTypes "maybe".toList),
    .dialect ⟨"db2".toList⟩]

end Variables

theorem reports_every_issue_variables :
    (validate soundSettings = .ok () ∧
      (∃ options, ReadOptions.ofEnvironment soundSettings = .ok options) ∧
      (∃ layout, Layout.ofEnvironment soundSettings = .ok layout) ∧
      ∃ dialect, Dialect.resolve soundSettings none = .ok dialect) ∧
    validate faultySettings = .error faultyIssues ∧
    ∃ (own : Setting → Option Issue) (left : Option Issue),
      (∀ setting issue, own setting = some issue ↔
        ∃ value, faultySettings.get? setting.name = some value ∧ setting.Flaw value issue) ∧
      (∀ issue, left = some issue ↔
        ∃ comment type, Setting.Holds faultySettings .commentAlignment comment ∧
          Setting.Holds faultySettings .typeAlignment type ∧ comment < type ∧
          issue = .commentLeftOfType comment type) ∧
      faultyIssues = Setting.widths.filterMap own ++ left.toList ++
        Setting.flags.filterMap own ++ (own .defaultDialect).toList := by
  have valid : validate soundSettings = .ok () := by decide +kernel
  have failed : validate faultySettings = .error faultyIssues := by decide +kernel
  exact ⟨⟨valid, (reports_every_issue soundSettings).1 valid⟩, failed,
    (reports_every_issue faultySettings).2 faultyIssues failed⟩

end Settings

end SchemaNotation
