import SchemaNotation.Proofs.Settings

/-!
# Columns of a checked layout

A layout takes each width from its variable, or the standard one when the variable holds
nothing.  The check of the settings compares the two alignments only when both are set, so
in a checked layout comments can start left of types where one of them is the standard one.
-/

namespace SchemaNotation

/-! ## Widths -/

theorem Checked.eq_ok_of_both {α β : Type} {first : Checked α} {second : Checked β}
    {value : α × β} (success : both first second = .ok value) :
    first = .ok value.1 ∧ second = .ok value.2 := by
  cases first with
  | error faults => cases second <;> cases success
  | ok found =>
      cases second with
      | error faults => cases success
      | ok other =>
          cases success
          exact ⟨rfl, rfl⟩

namespace Layout

theorem eq_of_checkWidth {value : Int} {width : Nat} {step : PathStep}
    (success : (checkWidth value).below step = .ok width) : value = width := by
  have checked := eq_ok_of_mapError_eq_ok success
  cases value with
  | ofNat size =>
      cases checked
      rfl
  | negSucc size => cases checked

/-- A layout has the widths that it was built from. -/
theorem widths_of_check {indent typeAlignment commentAlignment : Int}
    {sortColumns alignTypes : Bool} {layout : Layout}
    (built : check indent typeAlignment commentAlignment sortColumns alignTypes = .ok layout) :
    indent = layout.indent ∧ typeAlignment = layout.typeAlignment ∧
      commentAlignment = layout.commentAlignment := by
  obtain ⟨⟨width, type, comment⟩, checked, rfl⟩ := exists_of_map_eq_ok built
  obtain ⟨indentChecked, checked⟩ := Checked.eq_ok_of_both checked
  obtain ⟨typeChecked, commentChecked⟩ := Checked.eq_ok_of_both checked
  exact ⟨eq_of_checkWidth indentChecked, eq_of_checkWidth typeChecked,
    eq_of_checkWidth commentChecked⟩

end Layout

/-! ## Settings and standards -/

namespace Setting

/-- The variable of a setting is not set, or blank. -/
def Unset (environment : Environment) (setting : Setting) : Prop :=
  ∀ value, environment.get? setting.name = some value → Text.isAllBlank value = true

/-- The number that a setting gives: the one its variable holds, or the standard one. -/
inductive Gives (environment : Environment) (setting : Setting) (standard : Int) : Int → Prop where
  | held {number : Int} (holds : Holds environment setting number) :
      Gives environment setting standard number
  | standard (unset : Unset environment setting) : Gives environment setting standard standard

section Gives

variable {environment : Environment} {setting : Setting} {number : Int}

theorem integer?_eq_ok_none_iff :
    environment.integer? setting.name = .ok none ↔ Unset environment setting := by
  have absent : environment.integer? setting.name = .ok none ↔
      environment.present? setting.name = none := by
    rw [Environment.integer?]
    cases environment.present? setting.name with
    | none => simp
    | some value => cases read : Integer.read? (Text.trim value) <;> simp [read]
  rw [absent, Environment.present?, Option.filter_eq_none_iff, Unset]
  simp

theorem gives_of_integer? {standard : Int} {number? : Option Int}
    (read : environment.integer? setting.name = .ok number?) :
    Gives environment setting standard (number?.getD standard) := by
  cases number? with
  | none => exact .standard (integer?_eq_ok_none_iff.mp read)
  | some number => exact .held (Environment.integer?_eq_ok_some_iff.mp read)

/-- A setting that holds a number is set. -/
theorem Holds.not_unset (holds : Holds environment setting number) :
    ¬Unset environment setting := by
  intro unset
  have read := Environment.integer?_eq_ok_some_iff.mpr holds
  rw [integer?_eq_ok_none_iff.mpr unset] at read
  cases read

theorem Holds.unique {other : Int} (first : Holds environment setting number)
    (second : Holds environment setting other) : number = other := by
  have read := Environment.integer?_eq_ok_some_iff.mpr first
  rw [Environment.integer?_eq_ok_some_iff.mpr second] at read
  cases read
  rfl

/-- An alignment without an issue gives a positive column. -/
theorem Gives.pos {standard : Int} (gives : Gives environment setting standard number)
    (aligns : setting ∈ alignments) (sound : setting.issues environment = [])
    (positive : 0 < standard) : 0 < number := by
  cases gives with
  | standard => exact positive
  | held holds =>
      obtain ⟨value, set, read⟩ := holds
      by_contra low
      have flaw := mem_issues.mpr
        ⟨value, set, Flaw.notPositive aligns read (Int.not_lt.mp low)⟩
      rw [sound] at flaw
      cases flaw

end Gives

end Setting

/-- The widths of a layout are those that the settings give. -/
theorem Layout.gives_of_ofEnvironment {environment : Environment} {layout : Layout}
    (found : ofEnvironment environment = .ok layout) :
    Setting.Gives environment .indent 2 layout.indent ∧
      Setting.Gives environment .typeAlignment 25 layout.typeAlignment ∧
      Setting.Gives environment .commentAlignment 45 layout.commentAlignment := by
  obtain ⟨indent, readIndent, found⟩ := exists_of_bind_eq_ok found
  obtain ⟨type, readType, found⟩ := exists_of_bind_eq_ok found
  obtain ⟨comment, readComment, found⟩ := exists_of_bind_eq_ok found
  obtain ⟨sort, -, found⟩ := exists_of_bind_eq_ok found
  obtain ⟨align, -, found⟩ := exists_of_bind_eq_ok found
  obtain ⟨indentWidth, typeWidth, commentWidth⟩ := widths_of_check (eq_ok_of_mapError_eq_ok found)
  rw [← indentWidth, ← typeWidth, ← commentWidth]
  exact ⟨Setting.gives_of_integer? (eq_ok_of_mapError_eq_ok readIndent),
    Setting.gives_of_integer? (eq_ok_of_mapError_eq_ok readType),
    Setting.gives_of_integer? (eq_ok_of_mapError_eq_ok readComment)⟩

namespace Settings

variable {environment : Environment}

/-- Without an issue of the alignments, comments start left of types only where one of the
two columns is the standard one. -/
theorem left_iff_of_alignmentIssues (clear : alignmentIssues environment = []) {type comment : Int}
    (givesType : Setting.Gives environment .typeAlignment 25 type)
    (givesComment : Setting.Gives environment .commentAlignment 45 comment) :
    comment < type ↔
      (Setting.Unset environment .typeAlignment ∧
        ∃ column < 25, Setting.Holds environment .commentAlignment column) ∨
      (Setting.Unset environment .commentAlignment ∧
        ∃ column > 45, Setting.Holds environment .typeAlignment column) := by
  -- Two set columns are compared by the check, and two standard ones are in order.
  cases givesType with
  | held holdsType =>
      have typeSet := holdsType.not_unset
      cases givesComment with
      | held holdsComment =>
          have right : ¬comment < type := by
            intro left
            have issue := mem_alignmentIssues.mpr
              ⟨comment, type, holdsComment, holdsType, left, rfl⟩
            rw [clear] at issue
            cases issue
          simp [right, typeSet, holdsComment.not_unset]
      | standard commentUnset =>
          constructor
          · intro left
            exact .inr ⟨commentUnset, type, left, holdsType⟩
          · rintro (⟨typeUnset, _⟩ | ⟨_, column, high, holds⟩)
            · exact (typeSet typeUnset).elim
            · rwa [holdsType.unique holds]
  | standard typeUnset =>
      cases givesComment with
      | held holdsComment =>
          constructor
          · intro left
            exact .inl ⟨typeUnset, comment, left, holdsComment⟩
          · rintro (⟨_, column, low, holds⟩ | ⟨commentUnset, _⟩)
            · rwa [holdsComment.unique holds]
            · exact (holdsComment.not_unset commentUnset).elim
      | standard commentUnset =>
          constructor
          · intro left
            exact absurd left (by decide)
          · rintro (⟨_, column, _, holds⟩ | ⟨_, column, _, holds⟩)
            · exact (holds.not_unset commentUnset).elim
            · exact (holds.not_unset typeUnset).elim

/-- A checked environment gives a layout with positive columns.  Comments start left of
types in it exactly when one alignment is set and the standard of the other one is on the
wrong side of it. -/
theorem checked_alignments (valid : validate environment = .ok ()) :
    ∃ layout, Layout.ofEnvironment environment = .ok layout ∧
      Setting.Gives environment .indent 2 layout.indent ∧
      Setting.Gives environment .typeAlignment 25 layout.typeAlignment ∧
      Setting.Gives environment .commentAlignment 45 layout.commentAlignment ∧
      0 < layout.typeAlignment ∧ 0 < layout.commentAlignment ∧
      (layout.commentAlignment < layout.typeAlignment ↔
        (Setting.Unset environment .typeAlignment ∧
          ∃ column < 25, Setting.Holds environment .commentAlignment column) ∨
        (Setting.Unset environment .commentAlignment ∧
          ∃ column > 45, Setting.Holds environment .typeAlignment column)) := by
  have clear := issues_of_validate_ok valid
  have sound := setting_issues_of_issues clear
  have noLeft : alignmentIssues environment = [] := by
    simp only [issues_eq, List.append_eq_nil_iff] at clear
    exact clear.1.1.2
  obtain ⟨layout, found⟩ := Layout.exists_ofEnvironment sound
  obtain ⟨indent, type, comment⟩ := Layout.gives_of_ofEnvironment found
  have typePositive := type.pos (by decide) (sound .typeAlignment) (by decide)
  have commentPositive := comment.pos (by decide) (sound .commentAlignment) (by decide)
  refine ⟨layout, found, indent, type, comment, Int.natCast_pos.mp typePositive,
    Int.natCast_pos.mp commentPositive, ?_⟩
  rw [← left_iff_of_alignmentIssues noLeft type comment, Int.ofNat_lt]

theorem checked_alignments_variables :
    validate soundSettings = .ok () ∧
      ∃ layout, Layout.ofEnvironment soundSettings = .ok layout ∧
        0 < layout.typeAlignment ∧ 0 < layout.commentAlignment ∧
        layout.typeAlignment ≤ layout.commentAlignment := by
  have valid : validate soundSettings = .ok () := by decide +kernel
  have type : Setting.Holds soundSettings .typeAlignment 10 :=
    ⟨"+1_0".toList, by decide, by decide⟩
  have comment : Setting.Holds soundSettings .commentAlignment 20 :=
    ⟨"٢٠".toList, by decide, by decide⟩
  obtain ⟨layout, found, _, _, _, typePositive, commentPositive, left⟩ := checked_alignments valid
  have bothSet : ¬layout.commentAlignment < layout.typeAlignment := by
    rw [left]
    rintro (⟨typeUnset, _⟩ | ⟨commentUnset, _⟩)
    · exact type.not_unset typeUnset
    · exact comment.not_unset commentUnset
  exact ⟨valid, layout, found, typePositive, commentPositive, Nat.not_lt.mp bothSet⟩

/-- Where only the comment column is set, it is accepted left of the standard type column. -/
theorem comment_left_of_standard_type :
    validate [(commentAlignment, "10".toList)] = .ok () ∧
      ∃ layout, Layout.ofEnvironment [(commentAlignment, "10".toList)] = .ok layout ∧
        layout.commentAlignment < layout.typeAlignment :=
  ⟨by decide +kernel, { commentAlignment := 10 }, by decide +kernel, by decide⟩

end Settings

end SchemaNotation
