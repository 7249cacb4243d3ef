import SchemaNotation.Proofs.Character

/-!
# Lower case

Lower case changes letters only.  Blanks, digits and marks stay as they are, and none of
them comes from another character, so a text in lower case has the marks and the blanks of
the text at its ends.
-/

namespace SchemaNotation

/-- A character that is its own lower case form and not that of any other. -/
structure Caseless (d : Char) : Prop where
  own : lowerLetter d = [d]
  only : ∀ c, d ∈ lowerLetter c → c = d

theorem lowerLetter_of_not_isUpper {c : Char} (noKelvin : c ≠ kelvinSign)
    (noDotted : c ≠ dottedCapitalI) (notUpper : c.isUpper = false) : lowerLetter c = [c] := by
  rw [lowerLetter, if_neg noKelvin, if_neg noDotted]
  exact congrArg (fun d => [d]) (dif_neg (of_decide_eq_false notUpper))

/-- The code points of the capital letters. -/
theorem toNat_mem_of_isUpper {c : Char} (upper : c.isUpper = true) :
    c.toNat ∈ List.range' 65 26 := by
  have range : 'A'.val ≤ c.val ∧ c.val ≤ 'Z'.val := of_decide_eq_true upper
  rw [List.mem_range'_1]
  exact ⟨UInt32.le_iff_toNat_le.mp range.1, Nat.lt_succ_of_le (UInt32.le_iff_toNat_le.mp range.2)⟩

theorem isLower_toLower {c : Char} (upper : c.isUpper = true) : c.toLower.isLower = true := by
  have known : ∀ code ∈ List.range' 65 26, (Char.ofNat code).toLower.isLower = true := by decide
  have letter := known c.toNat (toNat_mem_of_isUpper upper)
  rwa [Char.ofNat_toNat] at letter

/-- A character is caseless when it is no letter and not the dot that one of them leaves. -/
theorem caseless_of_no_letter {d : Char} (notUpper : d.isUpper = false)
    (notLower : d.isLower = false) (noKelvin : d ≠ kelvinSign) (noDotted : d ≠ dottedCapitalI)
    (noDot : d ≠ dotAbove) : Caseless d := by
  refine ⟨lowerLetter_of_not_isUpper noKelvin noDotted notUpper, ?_⟩
  intro c member
  rw [lowerLetter] at member
  split at member
  · rw [List.mem_singleton.mp member] at notLower
    cases notLower
  · split at member
    · simp only [List.mem_cons, List.not_mem_nil, or_false] at member
      rcases member with rfl | dot
      · cases notLower
      · exact (noDot dot).elim
    · rw [List.mem_singleton] at member
      cases upper : c.isUpper with
      | false => exact (member.trans (dif_neg (of_decide_eq_false upper))).symm
      | true =>
          rw [member, isLower_toLower upper] at notLower
          cases notLower

private theorem no_letter_blankCodes : ∀ code ∈ blankCodes,
    (Char.ofNat code).isUpper = false ∧ (Char.ofNat code).isLower = false ∧
      Char.ofNat code ≠ kelvinSign ∧ Char.ofNat code ≠ dottedCapitalI ∧
      Char.ofNat code ≠ dotAbove := by
  decide

theorem caseless_of_isBlank {c : Char} (blank : isBlank c = true) : Caseless c := by
  have known := no_letter_blankCodes c.toNat (mem_blankCodes blank)
  rw [Char.ofNat_toNat] at known
  obtain ⟨notUpper, notLower, noKelvin, noDotted, noDot⟩ := known
  exact caseless_of_no_letter notUpper notLower noKelvin noDotted noDot

/-- A digit is its own lower case form. -/
theorem lowerLetter_of_isDigit {c : Char} (digit : isDigit c = true) : lowerLetter c = [c] := by
  have capitals : ∀ code ∈ List.range' 65 26, isDigit (Char.ofNat code) = false := by decide
  apply lowerLetter_of_not_isUpper
  · rintro rfl
    exact absurd digit (by decide)
  · rintro rfl
    exact absurd digit (by decide)
  · rw [← Bool.not_eq_true]
    intro upper
    have clear := capitals c.toNat (toNat_mem_of_isUpper upper)
    rw [Char.ofNat_toNat, digit] at clear
    cases clear

namespace Text

@[simp] theorem lower_nil : lower [] = [] := rfl

@[simp] theorem lower_cons (c : Char) (text : Text) :
    lower (c :: text) = lowerLetter c ++ lower text :=
  List.flatMap_cons

@[simp] theorem lower_append (first second : Text) :
    lower (first ++ second) = lower first ++ lower second :=
  List.flatMap_append

theorem lower_of_caseless {text : Text} (caseless : ∀ c ∈ text, Caseless c) :
    lower text = text := by
  induction text with
  | nil => rfl
  | cons c text ih =>
      obtain ⟨first, rest⟩ := List.forall_mem_cons.mp caseless
      rw [lower_cons, first.own, ih rest, List.singleton_append]

theorem lower_of_blank {blanks : Text} (blank : Blank blanks) : lower blanks = blanks :=
  lower_of_caseless fun c member => caseless_of_isBlank (blank c member)

theorem lowerLetter_ne_nil (c : Char) : lowerLetter c ≠ [] := by
  unfold lowerLetter
  repeat' split
  all_goals simp

/-- A caseless character in front of a text in lower case stands in front of the text. -/
theorem head?_of_head?_lower {text : Text} {d : Char} (caseless : Caseless d)
    (found : (lower text).head? = some d) : text.head? = some d := by
  cases text with
  | nil => cases found
  | cons c text =>
      rw [lower_cons, List.head?_append_of_ne_nil _ (lowerLetter_ne_nil c)] at found
      rw [List.head?_cons, caseless.only c (List.mem_of_head? found)]

/-- Caseless characters at the end of a text in lower case stand at the end of the text. -/
theorem suffix_of_suffix_lower {tail text : Text} (caseless : ∀ c ∈ tail, Caseless c)
    (ends : tail <:+ lower text) : tail <:+ text := by
  induction text using List.reverseRecOn generalizing tail with
  | nil => exact ends
  | append_singleton text c ih =>
      cases tail using List.reverseRecOn with
      | nil => exact List.nil_suffix
      | append_singleton tail d =>
          have known := caseless d (by simp)
          obtain ⟨front, equal⟩ := ends
          rw [lower_append, lower_cons, lower_nil, List.append_nil, ← List.append_assoc] at equal
          have last := congrArg List.getLast? equal
          rw [List.getLast?_concat, List.getLast?_append_of_ne_nil _ (lowerLetter_ne_nil c)] at last
          have same : c = d := known.only c (List.mem_of_getLast? last.symm)
          rw [same, known.own] at equal
          obtain ⟨rest, stripped⟩ := ih
            (fun e member => caseless e (List.mem_append_left [d] member))
            ⟨front, List.append_cancel_right equal⟩
          exact ⟨rest, by rw [← List.append_assoc, stripped, same]⟩

/-- Blanks at the end are dropped before or after the change to lower case. -/
theorem trimRight_lower (text : Text) : trimRight (lower text) = lower (trimRight text) := by
  obtain ⟨blanks, blank, equal⟩ := trimRight_split text
  conv_lhs => rw [equal, lower_append, lower_of_blank blank, trimRight_append_blank blank]
  apply trimRight_of_last
  intro c found
  rw [← Bool.not_eq_true]
  intro isBlank
  have ends : [c] <:+ lower (trimRight text) := by
    obtain ⟨front, shape⟩ := List.getLast?_eq_some_iff.mp found
    exact ⟨front, shape.symm⟩
  obtain ⟨front, shape⟩ := suffix_of_suffix_lower (by simpa using caseless_of_isBlank isBlank) ends
  have last : (trimRight text).getLast? = some c := by
    rw [← shape, List.getLast?_concat]
  rw [trimRight_last last] at isBlank
  cases isBlank

end Text

end SchemaNotation
