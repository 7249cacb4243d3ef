import Mathlib.Data.List.Forall2

/-!
# Steps that can fail

A run of steps succeeds when each step does.  These lemmas take the success of a run
apart, and put it together again.
-/

namespace SchemaNotation

variable {ε α β : Type}

theorem exists_of_bind_eq_ok {step : Except ε α} {next : α → Except ε β} {result : β}
    (success : step >>= next = .ok result) : ∃ value, step = .ok value ∧ next value = .ok result := by
  cases step with
  | error fault => cases success
  | ok value => exact ⟨value, rfl, success⟩

theorem exists_of_map_eq_ok {image : α → β} {step : Except ε α} {result : β}
    (success : step.map image = .ok result) : ∃ value, step = .ok value ∧ image value = result := by
  cases step with
  | error fault => cases success
  | ok value => exact ⟨value, rfl, Except.ok.inj success⟩

theorem error_of_bind_eq_error {step : Except ε α} {next : α → Except ε β} {fault : ε}
    (failure : step >>= next = .error fault) :
    step = .error fault ∨ ∃ value, step = .ok value ∧ next value = .error fault := by
  cases step with
  | error first => exact Or.inl (congrArg Except.error (Except.error.inj failure))
  | ok value => exact Or.inr ⟨value, rfl, failure⟩

theorem exists_of_mapError_eq_error {δ : Type} {translate : ε → δ} {step : Except ε α} {fault : δ}
    (failure : step.mapError translate = .error fault) :
    ∃ first, step = .error first ∧ translate first = fault := by
  cases step with
  | error first => exact ⟨first, rfl, Except.error.inj failure⟩
  | ok value => cases failure

theorem eq_ok_of_mapError_eq_ok {δ : Type} {translate : ε → δ} {step : Except ε α} {value : α}
    (success : step.mapError translate = .ok value) : step = .ok value := by
  cases step with
  | error fault => cases success
  | ok found =>
      cases success
      rfl

theorem mapError_bind {δ : Type} (translate : ε → δ) (step : Except ε α)
    (next : α → Except ε β) :
    (step >>= next).mapError translate =
      step.mapError translate >>= fun value => (next value).mapError translate := by
  cases step <;> rfl

theorem mapError_map {δ : Type} (translate : ε → δ) (step : Except ε α) (image : α → β) :
    (step.map image).mapError translate = (step.mapError translate).map image := by
  cases step <;> rfl

/-- Steps over a list succeed exactly when each of them does, with the results in order. -/
theorem mapM_eq_ok_iff {step : α → Except ε β} {values : List α} {results : List β} :
    values.mapM step = .ok results ↔
      List.Forall₂ (fun value result => step value = .ok result) values results := by
  induction values generalizing results with
  | nil =>
      rw [List.mapM_nil, List.forall₂_nil_left_iff]
      constructor
      · intro success
        cases success
        rfl
      · rintro rfl
        rfl
  | cons value values ih =>
      rw [List.mapM_cons, List.forall₂_cons_left_iff]
      constructor
      · intro success
        obtain ⟨result, first, success⟩ := exists_of_bind_eq_ok success
        obtain ⟨others, rest, success⟩ := exists_of_bind_eq_ok success
        cases success
        exact ⟨result, others, first, ih.mp rest, rfl⟩
      · rintro ⟨result, others, first, rest, rfl⟩
        rw [first, ih.mpr rest]
        rfl

/-- Steps over a list fail where one of them does. -/
theorem exists_of_mapM_eq_error {step : α → Except ε β} {values : List α} {fault : ε}
    (failure : values.mapM step = .error fault) : ∃ value ∈ values, step value = .error fault := by
  induction values with
  | nil => cases failure
  | cons value values ih =>
      rw [List.mapM_cons] at failure
      rcases error_of_bind_eq_error failure with here | ⟨result, _, failure⟩
      · exact ⟨value, by simp, here⟩
      · rcases error_of_bind_eq_error failure with later | ⟨results, _, failure⟩
        · obtain ⟨other, member, fails⟩ := ih later
          exact ⟨other, List.mem_cons_of_mem value member, fails⟩
        · cases failure

/-- Steps that all succeed succeed in a row. -/
theorem exists_mapM_eq_ok {step : α → Except ε β} {values : List α}
    (succeeds : ∀ value ∈ values, ∃ result, step value = .ok result) :
    ∃ results, values.mapM step = .ok results := by
  induction values with
  | nil => exact ⟨[], rfl⟩
  | cons value values ih =>
      obtain ⟨result, first⟩ := succeeds value (by simp)
      obtain ⟨results, others⟩ := ih fun other member => succeeds other (by simp [member])
      refine ⟨result :: results, ?_⟩
      rw [List.mapM_cons, first, others]
      rfl

/-- Every right-hand element of two related lists has a partner on the left. -/
theorem exists_of_forall₂ {relation : α → β → Prop} {values : List α} {results : List β}
    (related : List.Forall₂ relation values results) {result : β} (member : result ∈ results) :
    ∃ value ∈ values, relation value result := by
  induction related with
  | nil => cases member
  | @cons value other values results first _ ih =>
      rcases List.mem_cons.mp member with rfl | member
      · exact ⟨value, by simp, first⟩
      · obtain ⟨partner, partnerMem, related⟩ := ih member
        exact ⟨partner, List.mem_cons_of_mem _ partnerMem, related⟩

theorem mapM_append_eq_ok {step : α → Except ε β} {first second : List α}
    {firstResults secondResults : List β} (firstSuccess : first.mapM step = .ok firstResults)
    (secondSuccess : second.mapM step = .ok secondResults) :
    (first ++ second).mapM step = .ok (firstResults ++ secondResults) := by
  rw [List.mapM_append, firstSuccess, secondSuccess]
  rfl

theorem exists_result_of_mem {relation : α → β → Prop} {values : List α} {results : List β}
    (related : List.Forall₂ relation values results) {value : α} (member : value ∈ values) :
    ∃ result, relation value result := by
  obtain ⟨result, _, holds⟩ := exists_of_forall₂ related.flip member
  exact ⟨result, holds⟩

theorem mapM_eq_of_forall₂ {step : α → Except ε β} {values others : List α}
    (same : List.Forall₂ (fun value other => step other = step value) values others) :
    others.mapM step = values.mapM step := by
  induction same with
  | nil => rfl
  | cons first _ ih => rw [List.mapM_cons, List.mapM_cons, first, ih]

end SchemaNotation
