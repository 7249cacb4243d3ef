import SchemaNotation.Proofs.Settings
import SchemaNotation.TypeMap

/-!
# Blank settings

A blank value of a variable counts as none to the readers of integers and of flags, so they
see the same environment with it and without it.  The default dialect is the exception:  of
its variable only the empty value counts as none, and any other blank one is taken for the
name of a dialect, which no dialect has.
-/

namespace SchemaNotation

namespace Environment

/-! ## A variable that is given a value -/

section Set

variable {environment : Environment} {name other : Text}

theorem get?_unset_of_ne (different : other ≠ name) :
    (environment.unset name).get? other = environment.get? other := by
  induction environment with
  | nil => rfl
  | cons entry environment ih =>
      rw [unset, get?] at ih
      rw [unset, get?, get?, List.filter_cons, List.lookup_cons]
      by_cases removed : entry.1 = name
      · rw [if_neg (by simpa using removed), removed, beq_eq_false_iff_ne.mpr different]
        exact ih
      · rw [if_pos (by simpa using removed), List.lookup_cons, ih]
        rfl

theorem get?_set_self (environment : Environment) (name value : Text) :
    (environment.set name value).get? name = some value := by
  rw [set, get?, List.lookup_cons_self]

theorem get?_set_of_ne (different : other ≠ name) (value : Text) :
    (environment.set name value).get? other = environment.get? other := by
  rw [set, get?, List.lookup_cons, beq_eq_false_iff_ne.mpr different]
  exact get?_unset_of_ne different

/-- A blank value is not seen. -/
theorem present?_set_of_blank {value : Text} (unset : environment.get? name = none)
    (blank : Text.isAllBlank value = true) (other : Text) :
    (environment.set name value).present? other = environment.present? other := by
  by_cases same : other = name
  · rw [same, present?, present?, get?_set_self, unset, Option.filter_some, blank]
    rfl
  · rw [present?, present?, get?_set_of_ne same]

end Set

/-! ## Environments that are seen alike -/

/-- Two environments whose variables have the same values, apart from blank ones. -/
def SeenAlike (first second : Environment) : Prop :=
  ∀ name, first.present? name = second.present? name

section Alike

variable {first second : Environment} (alike : SeenAlike first second)

include alike

theorem SeenAlike.integer? (name : Text) : first.integer? name = second.integer? name := by
  rw [Environment.integer?, Environment.integer?, alike name]

theorem SeenAlike.flag? (name : Text) : first.flag? name = second.flag? name := by
  rw [Environment.flag?, Environment.flag?, alike name]

theorem SeenAlike.readOptions :
    ReadOptions.ofEnvironment first = ReadOptions.ofEnvironment second := by
  rw [ReadOptions.ofEnvironment, ReadOptions.ofEnvironment]
  simp only [alike.flag?]

theorem SeenAlike.layout : Layout.ofEnvironment first = Layout.ofEnvironment second := by
  rw [Layout.ofEnvironment, Layout.ofEnvironment]
  simp only [alike.integer?, alike.flag?]

/-- The check finds the same issues but for those of the default dialect, which come last. -/
theorem SeenAlike.issues : ∃ others,
    Settings.issues first = others ++ Settings.dialectIssues first ∧
      Settings.issues second = others ++ Settings.dialectIssues second := by
  refine ⟨_, rfl, ?_⟩
  have integers : Settings.integerIssues first = Settings.integerIssues second := by
    funext name isGood issue
    rw [Settings.integerIssues, Settings.integerIssues, alike.integer?]
  have flags : Settings.flagIssues first = Settings.flagIssues second := by
    funext name
    rw [Settings.flagIssues, Settings.flagIssues, alike.flag?]
  have alignments : Settings.alignmentIssues first = Settings.alignmentIssues second := by
    rw [Settings.alignmentIssues, Settings.alignmentIssues]
    simp only [Settings.readable?, alike.integer?]
  rw [integers, flags, alignments]
  rfl

end Alike

end Environment

namespace Dialect

/-! ## The default dialect -/

/-- The dialect is left to the default. -/
def Unnamed (name? : Option Text) : Prop :=
  ∀ name, name? = some name → Text.isAllBlank name = true

section Default

variable {environment : Environment} {name? : Option Text}

/-- A name that is given is looked up, whatever the default is. -/
theorem resolve_of_named (named : ¬Unnamed name?) (first second : Environment) :
    resolve first name? = resolve second name? := by
  simp only [Unnamed, not_forall, Bool.not_eq_true] at named
  obtain ⟨name, rfl, filled⟩ := named
  have kept : (some name).filter (fun name => !Text.isAllBlank name) = some name := by
    rw [Option.filter_some, filled]
    rfl
  rw [resolve, resolve, kept]
  rfl

theorem resolve_of_unnamed (unnamed : Unnamed name?) :
    resolve environment name? = resolve environment none := by
  have dropped : name?.filter (fun name => !Text.isAllBlank name) = none := by
    rw [Option.filter_eq_none_iff]
    intro name given
    simp [unnamed name given]
  rw [resolve, dropped]
  rfl

theorem resolve_congr {first second : Environment} (same : defaultName first = defaultName second) :
    resolve first = resolve second := by
  funext name?
  rw [resolve, resolve, same]

theorem defaultName_set_nil (unset : environment.get? variableName = none) :
    defaultName (environment.set variableName []) = defaultName environment := by
  rw [defaultName, defaultName, Environment.get?_set_self, unset]

theorem defaultName_set_of_ne {name : Text} (different : variableName ≠ name) (value : Text) :
    defaultName (environment.set name value) = defaultName environment := by
  rw [defaultName, defaultName, Environment.get?_set_of_ne different]

/-- No dialect goes by a blank name. -/
theorem resolve_none_set_of_blank (environment : Environment) {value : Text}
    (blank : Text.isAllBlank value = true) (filled : value ≠ []) :
    resolve (environment.set variableName value) none = .error ⟨value⟩ := by
  rw [resolve_none_eq_error_iff]
  refine ⟨value, Environment.get?_set_self environment variableName value, filled, ?_, rfl⟩
  intro dialect
  rw [Text.trim_of_isAllBlank blank]
  cases dialect <;> decide

theorem resolve_none_of_unset (unset : environment.get? variableName = none) :
    resolve environment none = .ok .postgresql := by
  rw [resolve, Option.filter_none, Option.getD_none, defaultName, unset]
  rfl

end Default

end Dialect

/-! ## Blank values -/

namespace Environment

/-- What two environments give when they set the same options. -/
structure SetsAlike (first second : Environment) : Prop where
  readOptions : ReadOptions.ofEnvironment first = ReadOptions.ofEnvironment second
  layout : Layout.ofEnvironment first = Layout.ofEnvironment second

/-- What two environments give when they have the same default dialect as well. -/
structure ActsAlike (first second : Environment) : Prop extends SetsAlike first second where
  resolve : Dialect.resolve first = Dialect.resolve second
  mapNamed : Dialect.mapNamed first = Dialect.mapNamed second
  validate : Settings.validate first = Settings.validate second

/-- What an environment with a wrong name of the default dialect gives, beside one without
any name of it. -/
structure Misnames (value : Text) (first second : Environment) : Prop
    extends SetsAlike first second where
  unresolved : ∀ name?, Dialect.Unnamed name? → Dialect.resolve first name? = .error ⟨value⟩
  unmapped : ∀ name? type length scale, Dialect.Unnamed name? →
    Dialect.mapNamed first name? type length scale = .error ⟨value⟩
  resolved : ∀ name?, ¬Dialect.Unnamed name? →
    Dialect.resolve first name? = Dialect.resolve second name?
  mapped : ∀ name? type length scale, ¬Dialect.Unnamed name? →
    Dialect.mapNamed first name? type length scale = Dialect.mapNamed second name? type length scale
  validate : Settings.validate first = .error (Settings.issues second ++ [.dialect ⟨value⟩])

variable {environment first second : Environment}

theorem SeenAlike.setsAlike (alike : SeenAlike first second) : SetsAlike first second :=
  ⟨alike.readOptions, alike.layout⟩

theorem SeenAlike.actsAlike (alike : SeenAlike first second)
    (same : Dialect.defaultName first = Dialect.defaultName second) : ActsAlike first second := by
  have resolve := Dialect.resolve_congr same
  refine ⟨alike.setsAlike, resolve, ?_, ?_⟩
  · funext name? type length scale
    rw [Dialect.mapNamed, Dialect.mapNamed, resolve]
  · obtain ⟨others, firstIssues, secondIssues⟩ := alike.issues
    have dialect : Settings.dialectIssues first = Settings.dialectIssues second := by
      rw [Settings.dialectIssues, Settings.dialectIssues, resolve]
    rw [Settings.validate, Settings.validate, firstIssues, secondIssues, dialect]

/-- A blank value that is not empty is taken for the name of the default dialect. -/
theorem misnames_set_of_blank (unset : environment.get? Dialect.variableName = none) {value : Text}
    (blank : Text.isAllBlank value = true) (filled : value ≠ []) :
    Misnames value (environment.set Dialect.variableName value) environment := by
  have alike : SeenAlike (environment.set Dialect.variableName value) environment :=
    present?_set_of_blank unset blank
  have refused := Dialect.resolve_none_set_of_blank environment blank filled
  have unresolved : ∀ name?, Dialect.Unnamed name? →
      Dialect.resolve (environment.set Dialect.variableName value) name? = .error ⟨value⟩ := by
    intro name? unnamed
    rw [Dialect.resolve_of_unnamed unnamed, refused]
  have resolved : ∀ name?, ¬Dialect.Unnamed name? →
      Dialect.resolve (environment.set Dialect.variableName value) name? =
        Dialect.resolve environment name? :=
    fun name? named => Dialect.resolve_of_named named _ environment
  refine ⟨alike.setsAlike, unresolved, ?_, resolved, ?_, ?_⟩
  · intro name? type length scale unnamed
    rw [Dialect.mapNamed, unresolved name? unnamed]
    rfl
  · intro name? type length scale named
    rw [Dialect.mapNamed, Dialect.mapNamed, resolved name? named]
  · obtain ⟨others, blankIssues, issues⟩ := alike.issues
    have complaint : Settings.dialectIssues (environment.set Dialect.variableName value) =
        [.dialect ⟨value⟩] := by
      rw [Settings.dialectIssues, refused]
    have known : Settings.dialectIssues environment = [] := by
      rw [Settings.dialectIssues, Dialect.resolve_none_of_unset unset]
    have reported : Settings.issues (environment.set Dialect.variableName value) =
        Settings.issues environment ++ [.dialect ⟨value⟩] := by
      rw [blankIssues, issues, complaint, known, List.append_nil]
    rw [Settings.validate, reported]
    split
    · next none_found => simp at none_found
    · rfl

end Environment

namespace Setting

variable {environment : Environment}

/-- A blank value of a variable that is not set.  Nothing is changed by it exactly when the
variable is another one than that of the default dialect, or the value is empty.  Otherwise
the options are the same, but a missing or blank name of a dialect is refused, also where
types are mapped, and the check reports so behind all other issues. -/
theorem acts_unset_iff {setting : Setting} (unset : environment.get? setting.name = none)
    {value : Text} (blank : Text.isAllBlank value = true) :
    ((environment.set setting.name value).ActsAlike environment ↔
        (setting = .defaultDialect → value = [])) ∧
      (setting = .defaultDialect → value ≠ [] →
        (environment.set setting.name value).Misnames value environment) := by
  have misnames : setting = .defaultDialect → value ≠ [] →
      (environment.set setting.name value).Misnames value environment := by
    rintro rfl filled
    exact Environment.misnames_set_of_blank unset blank filled
  refine ⟨⟨?_, ?_⟩, misnames⟩
  · rintro acts rfl
    by_contra filled
    have refused := (misnames rfl filled).unresolved none (by simp [Dialect.Unnamed])
    rw [acts.resolve, Dialect.resolve_none_of_unset unset] at refused
    cases refused
  · intro usual
    refine Environment.SeenAlike.actsAlike (Environment.present?_set_of_blank unset blank) ?_
    by_cases dialect : setting = .defaultDialect
    · rw [dialect] at unset ⊢
      rw [usual dialect]
      exact Dialect.defaultName_set_nil unset
    · refine Dialect.defaultName_set_of_ne ?_ value
      cases setting with
      | defaultDialect => exact (dialect rfl).elim
      | _ => decide

/-- The value of an indent and no other setting. -/
def indentOnly : Environment :=
  [(Settings.indent, "-4".toList)]

theorem acts_unset_iff_indentOnly :
    (indentOnly.set Setting.skipConstraints.name "\t ".toList).ActsAlike indentOnly ∧
      Dialect.resolve (indentOnly.set Setting.defaultDialect.name "\t ".toList)
        (some " ".toList) = .error ⟨"\t ".toList⟩ ∧
      Settings.validate (indentOnly.set Setting.defaultDialect.name "\t ".toList) =
        .error [.negative Settings.indent (-4), .dialect ⟨"\t ".toList⟩] := by
  have blank : Text.isAllBlank "\t ".toList = true := by decide
  have flag : indentOnly.get? Setting.skipConstraints.name = none := by decide
  have dialect : indentOnly.get? Setting.defaultDialect.name = none := by decide
  have issues : Settings.issues indentOnly = [.negative Settings.indent (-4)] := by
    decide
  have misnames := (acts_unset_iff dialect blank).2 rfl (by decide)
  have unnamed : Dialect.Unnamed (some " ".toList) := by
    intro name given
    rw [← Option.some.inj given]
    decide
  refine ⟨(acts_unset_iff flag blank).1.mpr (by decide),
    misnames.unresolved _ unnamed, ?_⟩
  rw [misnames.validate, issues]
  rfl

/-- A blank name of the default dialect is no missing one. -/
theorem blank_default_refused :
    Environment.get? [] Setting.defaultDialect.name = none ∧ Text.isAllBlank "  ".toList = true ∧
      Dialect.resolve [] none = .ok .postgresql ∧
      Dialect.resolve (Environment.set [] Setting.defaultDialect.name "  ".toList) none =
        .error ⟨"  ".toList⟩ ∧
      Settings.validate [] = .ok () ∧
      Settings.validate (Environment.set [] Setting.defaultDialect.name "  ".toList) =
        .error [.dialect ⟨"  ".toList⟩] := by
  decide

end Setting

end SchemaNotation
