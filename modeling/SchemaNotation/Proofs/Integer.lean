import Mathlib.Algebra.Group.Nat.Defs
import SchemaNotation.Proofs.Character
import SchemaNotation.Text.Integer

/-!
# Written integers read back

The decimal form of a number has the value of the number, and a run of digits of any
script has a value whose decimal form is no longer than the run.
-/

namespace SchemaNotation.Integer

/-- A number whose decimal form is within the limit. -/
def InLimit (value : Nat) : Prop :=
  (Nat.toDigits 10 value).length ≤ digitLimit

instance (value : Nat) : Decidable (InLimit value) :=
  inferInstanceAs (Decidable (_ ≤ digitLimit))

theorem isDigit_toDigits {value : Nat} : ∀ c ∈ Nat.toDigits 10 value, isDigit c = true := by
  intro c member
  exact isDigit_of_isDigit (Nat.isDigit_of_mem_toDigits (by decide) (by decide) member)

private theorem foldl_digits {digits : Text} (ascii : ∀ c ∈ digits, c.isDigit = true) (start : Nat) :
    digits.foldl (fun value c => 10 * value + (digitValue? c).getD 0) start =
      Nat.ofDigitChars 10 digits start := by
  induction digits generalizing start with
  | nil => rfl
  | cons c digits ih =>
      have rest : ∀ d ∈ digits, d.isDigit = true := by
        intro d member
        exact ascii d (List.mem_cons_of_mem c member)
      rw [List.foldl_cons, Nat.ofDigitChars_cons, digitValue?_of_isDigit (ascii c (by simp)),
        Option.getD_some, ih rest]

/-- The decimal form of a number has the value of the number. -/
theorem digitsValue_toDigits (value : Nat) : Text.digitsValue (Nat.toDigits 10 value) = value := by
  rw [Text.digitsValue, foldl_digits, Nat.ofDigitChars_ten_toDigits]
  intro c member
  exact Nat.isDigit_of_mem_toDigits (by decide) (by decide) member

theorem ofDigits_toDigits {value : Nat} (inLimit : InLimit value) :
    ofDigits (Nat.toDigits 10 value) = .ok value := by
  rw [ofDigits, digitsValue_toDigits]
  exact if_pos inLimit

private theorem foldl_digits_lt (digits : Text) (start : Nat) :
    digits.foldl (fun value c => 10 * value + (digitValue? c).getD 0) start <
      (start + 1) * 10 ^ digits.length := by
  induction digits generalizing start with
  | nil => simp
  | cons c digits ih =>
      have digit : (digitValue? c).getD 0 < 10 := by
        cases found : digitValue? c with
        | none => decide
        | some value => exact digitValue?_lt found
      have rest := ih (10 * start + (digitValue? c).getD 0)
      have step : 10 * start + (digitValue? c).getD 0 + 1 ≤ (start + 1) * 10 := by omega
      rw [List.foldl_cons, List.length_cons, Nat.pow_succ', ← Nat.mul_assoc]
      exact Nat.lt_of_lt_of_le rest (Nat.mul_le_mul_right _ step)

theorem ofDigits_eq_ok_iff {digits : Text} {value : Nat} :
    ofDigits digits = .ok value ↔ digits.length ≤ digitLimit ∧ Text.digitsValue digits = value := by
  unfold ofDigits
  split
  · next short => simp [short]
  · next long => simp [long]

/-- The value of a run of digits is written with at most as many digits. -/
theorem inLimit_of_ofDigits {digits : Text} {value : Nat} (read : ofDigits digits = .ok value) :
    InLimit value := by
  obtain ⟨short, rfl⟩ := ofDigits_eq_ok_iff.mp read
  have small := foldl_digits_lt digits 0
  rw [Nat.zero_add, Nat.one_mul] at small
  rw [InLimit, Nat.length_toDigits_le_iff (by decide) (by decide)]
  exact Nat.lt_of_lt_of_le small (Nat.pow_le_pow_right (by decide) short)

/-- A run of digits is read up to where it stops. -/
theorem digits?_append {digits rest : Text} (nonempty : digits ≠ [])
    (inside : ∀ c ∈ digits, isDigit c = true) (stops : Text.Stops isDigit rest) :
    Text.digits? (digits ++ rest) = some (digits, rest) := by
  rw [Text.digits?, Text.takeWhile_append_of_stops inside stops,
    Text.dropWhile_append_of_stops inside stops]
  cases digits with
  | nil => exact (nonempty rfl).elim
  | cons c digits => rfl

theorem eq_append_of_digits? {text digits rest : Text}
    (found : Text.digits? text = some (digits, rest)) :
    text = digits ++ rest ∧ digits ≠ [] ∧ (∀ c ∈ digits, isDigit c = true) ∧
      Text.Stops isDigit rest := by
  unfold Text.digits? at found
  split at found
  · cases found
  · next nonempty =>
      simp only [Option.some.injEq, Prod.mk.injEq] at found
      obtain ⟨rfl, rfl⟩ := found
      exact ⟨List.takeWhile_append_dropWhile.symm, nonempty, fun c => Text.mem_takeWhile,
        Text.stops_dropWhile isDigit text⟩

/-! ## Integers with a sign -/

/-- A run of digits that is the text of a number. -/
structure Numeral (text : Text) : Prop where
  filled : text ≠ []
  digits : ∀ c ∈ text, isDigit c = true
  short : text.length ≤ digitLimit

theorem numeral_toDigits {value : Nat} (inLimit : InLimit value) :
    Numeral (Nat.toDigits 10 value) :=
  ⟨Nat.toDigits_ne_nil, isDigit_toDigits, inLimit⟩

theorem ungroup?_of_digits {text : Text} (digits : ∀ c ∈ text, isDigit c = true) :
    ungroup? text = some text := by
  induction text with
  | nil => rfl
  | cons c text ih =>
      obtain ⟨first, rest⟩ := List.forall_mem_cons.mp digits
      have other : c ≠ '_' := by
        rintro rfl
        exact absurd first (by decide)
      rw [ungroup?.eq_def]
      simp only [if_neg other, first, if_true, ih rest, Option.map_some]

theorem Numeral.readUnsigned? {text : Text} (numeral : Numeral text) :
    readUnsigned? text = some (Text.digitsValue text) := by
  obtain ⟨filled, digits, short⟩ := numeral
  cases text with
  | nil => exact (filled rfl).elim
  | cons c text =>
      have converted : ofDigits (c :: text) = .ok _ := ofDigits_eq_ok_iff.mpr ⟨short, rfl⟩
      rw [Integer.readUnsigned?, digits c List.mem_cons_self, ungroup?_of_digits digits]
      exact congrArg Except.toOption converted

/-- A numeral without a sign is read as its value. -/
theorem Numeral.read? {text : Text} (numeral : Numeral text) :
    read? text = some (Text.digitsValue text : Int) := by
  have unsigned : Integer.read? text = (Integer.readUnsigned? text).map Int.ofNat := by
    unfold Integer.read?
    split
    · exact absurd (numeral.digits '-' (by simp)) (by decide)
    · exact absurd (numeral.digits '+' (by simp)) (by decide)
    · rfl
  rw [unsigned, numeral.readUnsigned?]
  rfl

theorem inLimit_of_readUnsigned? {text : Text} {value : Nat}
    (found : readUnsigned? text = some value) : InLimit value := by
  cases text with
  | nil => cases found
  | cons c text =>
      obtain ⟨_, _, found⟩ := Option.bind_eq_some_iff.mp found
      obtain ⟨digits, _, read⟩ := Option.bind_eq_some_iff.mp found
      cases converted : ofDigits digits with
      | error fault =>
          rw [converted] at read
          cases read
      | ok number =>
          rw [converted] at read
          cases read
          exact inLimit_of_ofDigits converted

/-- An integer that was read can be written within the limit. -/
theorem inLimit_of_read? {text : Text} {value : Int} (found : read? text = some value) :
    InLimit value.natAbs := by
  have known : ∃ text number, readUnsigned? text = some number ∧ value.natAbs = number := by
    unfold read? at found
    split at found
    · next text =>
        cases read : readUnsigned? text with
        | none => simp [read] at found
        | some number =>
            have equal : -(number : Int) = value := by simpa [read] using found
            exact ⟨text, number, read, by rw [← equal, Int.natAbs_neg, Int.natAbs_natCast]⟩
    all_goals
      obtain ⟨number, read, rfl⟩ := Option.map_eq_some_iff.mp found
      exact ⟨_, number, read, rfl⟩
  obtain ⟨unsigned, number, read, same⟩ := known
  rw [same]
  exact inLimit_of_readUnsigned? read

end SchemaNotation.Integer
