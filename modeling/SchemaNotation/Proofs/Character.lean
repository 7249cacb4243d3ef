import SchemaNotation.Identifier
import SchemaNotation.Proofs.Text
import SchemaNotation.Text.Digit
import SchemaNotation.Text.Letter
import SchemaNotation.Text.Word

/-!
# Classes of characters

How the classes the readers test for exclude or include each other.
-/

namespace SchemaNotation

/-- The code points of the blanks. -/
def blankCodes : List Nat :=
  List.range' 9 5 ++ List.range' 28 5 ++ [0x85, 0xA0, 0x1680] ++ List.range' 0x2000 11 ++
    [0x2028, 0x2029, 0x202F, 0x205F, 0x3000]

theorem mem_blankCodes {c : Char} (blank : isBlank c = true) : c.toNat ∈ blankCodes := by
  simp only [isBlank, Bool.or_eq_true, Bool.and_eq_true, decide_eq_true_eq, beq_iff_eq] at blank
  simp only [blankCodes, List.mem_append, List.mem_range'_1, List.mem_cons, List.not_mem_nil]
  omega

private theorem isWord_blankCodes : ∀ code ∈ blankCodes, isWord (Char.ofNat code) = false := by
  decide +kernel

/-- No blank is a word character. -/
theorem isWord_of_isBlank {c : Char} (blank : isBlank c = true) : isWord c = false := by
  have clear := isWord_blankCodes c.toNat (mem_blankCodes blank)
  rwa [Char.ofNat_toNat] at clear

private theorem isDigit_blankCodes : ∀ code ∈ blankCodes, isDigit (Char.ofNat code) = false := by
  decide

/-- No blank is a digit. -/
theorem isDigit_of_isBlank {c : Char} (blank : isBlank c = true) : isDigit c = false := by
  have clear := isDigit_blankCodes c.toNat (mem_blankCodes blank)
  rwa [Char.ofNat_toNat] at clear

theorem isBlank_of_isDigit {c : Char} (digit : isDigit c = true) : isBlank c = false := by
  cases blank : isBlank c with
  | false => rfl
  | true =>
      rw [isDigit_of_isBlank blank] at digit
      exact absurd digit Bool.false_ne_true

theorem isBlank_of_isWord {c : Char} (word : isWord c = true) : isBlank c = false := by
  cases blank : isBlank c with
  | false => rfl
  | true =>
      rw [isWord_of_isBlank blank] at word
      exact absurd word Bool.false_ne_true

/-- The characters of a plain identifier are word characters. -/
theorem isWord_of_isContinue {c : Char} (continues : Identifier.isContinue c = true) :
    isWord c = true := by
  have ascii : isAscii c = true := by
    simp only [Identifier.isContinue, Char.isAlphanum, Bool.or_eq_true, beq_iff_eq] at continues
    simp only [isAscii, decide_eq_true_eq]
    rcases continues with (letter | digit) | rfl
    · rcases Bool.or_eq_true_iff.mp letter with upper | lower
      · have bound : c.val ≤ 'Z'.val := (of_decide_eq_true upper).2
        exact Nat.lt_of_le_of_lt (UInt32.le_iff_toNat_le.mp bound) (by decide)
      · have bound : c.val ≤ 'z'.val := of_decide_eq_true (Bool.and_eq_true_iff.mp lower).2
        exact Nat.lt_of_le_of_lt (UInt32.le_iff_toNat_le.mp bound) (by decide)
    · exact Nat.lt_of_le_of_lt (Char.isDigit_iff_toNat.mp digit).2 (by decide)
    · decide
  rw [isWord, if_pos ascii]
  exact continues

theorem isContinue_of_isStart {c : Char} (starts : Identifier.isStart c = true) :
    Identifier.isContinue c = true := by
  simp only [Identifier.isStart, Identifier.isContinue, Char.isAlphanum, Bool.or_eq_true]
    at starts ⊢
  rcases starts with letter | underscore
  · exact Or.inl (Or.inl letter)
  · exact Or.inr underscore

theorem isContinue_of_isBlank {c : Char} (blank : isBlank c = true) :
    Identifier.isContinue c = false := by
  rw [← Bool.not_eq_true]
  intro continues
  rw [isBlank_of_isWord (isWord_of_isContinue continues)] at blank
  cases blank

/-- The decimal digits of ASCII are digits, and each has the value of its place. -/
theorem digitValue?_of_isDigit {c : Char} (digit : c.isDigit = true) :
    digitValue? c = some (c.toNat - '0'.toNat) := by
  rw [Char.isDigit_iff_toNat] at digit
  have zero : '0'.toNat = 48 := rfl
  have nine : '9'.toNat = 57 := rfl
  have first : zeroDigits.find? (fun first => first ≤ c.toNat && c.toNat ≤ first + 9) = some 48 := by
    rw [zeroDigits, List.find?_cons_of_pos]
    simp only [Bool.and_eq_true, decide_eq_true_eq]
    omega
  rw [digitValue?, first, zero]
  rfl

theorem isDigit_of_isDigit {c : Char} (digit : c.isDigit = true) : isDigit c = true := by
  rw [isDigit, digitValue?_of_isDigit digit]
  rfl

/-- A digit of any script stands for a number below ten. -/
theorem digitValue?_lt {c : Char} {value : Nat} (found : digitValue? c = some value) :
    value < 10 := by
  simp only [digitValue?, Option.map_eq_some_iff] at found
  obtain ⟨first, found, rfl⟩ := found
  have inside := List.find?_some found
  simp only [Bool.and_eq_true, decide_eq_true_eq] at inside
  omega

/-- A character is a word character when it is one without regard to case. -/
theorem isWord_of_isWord_foldLetter {c : Char} (word : isWord (foldLetter c) = true) :
    isWord c = true := by
  unfold foldLetter at word
  split at word
  · next kelvin =>
      rw [kelvin]
      decide +kernel
  · split at word
    · next long =>
        rw [long]
        decide
    · split at word
      · next dotted =>
          rcases dotted with rfl | rfl <;> decide
      · cases upper : c.isUpper with
        | true =>
            apply isWord_of_isContinue
            have letter : c.isAlpha = true := Bool.or_eq_true_iff.mpr (Or.inl upper)
            simp [Identifier.isContinue, Char.isAlphanum, letter]
        | false =>
            have same : c.toLower = c := dif_neg (of_decide_eq_false upper)
            rwa [same] at word

end SchemaNotation
