import SchemaNotation.Proofs.Text
import SchemaNotation.Text.Scan

/-!
# Scans at work

What each scan finds in a text whose parts are known: a word or a keyword and what
follows it, the run up to a closing character, and the shortest run with an
acceptable end.
-/

namespace SchemaNotation.Text

/-! ## Words and keywords -/

theorem word?_append {word rest : Text} (nonempty : word ≠ []) (inside : ∀ c ∈ word, isWord c = true)
    (stops : Stops isWord rest) : word? (word ++ rest) = some (word, rest) := by
  rw [word?, takeWhile_append_of_stops inside stops,
    dropWhile_append_of_stops inside stops]
  cases word with
  | nil => exact (nonempty rfl).elim
  | cons c word => rfl

theorem eq_append_of_word? {text word rest : Text} (found : word? text = some (word, rest)) :
    text = word ++ rest ∧ word ≠ [] ∧ (∀ c ∈ word, isWord c = true) ∧ Stops isWord rest := by
  unfold word? at found
  split at found
  · cases found
  · next nonempty =>
      simp only [Option.some.injEq, Prod.mk.injEq] at found
      obtain ⟨rfl, rfl⟩ := found
      exact ⟨List.takeWhile_append_dropWhile.symm, nonempty, fun c => mem_takeWhile,
        stops_dropWhile isWord text⟩

@[simp] theorem afterKeyword?_append (keyword rest : Text) :
    afterKeyword? keyword (keyword ++ rest) = some rest := by
  induction keyword with
  | nil => rfl
  | cons letter keyword ih => simpa [afterKeyword?, sameLetter] using ih

theorem suffix_of_afterKeyword? {keyword text rest : Text}
    (found : afterKeyword? keyword text = some rest) : rest <:+ text := by
  induction keyword generalizing text with
  | nil =>
      cases found
      exact List.suffix_refl _
  | cons letter keyword ih =>
      cases text with
      | nil => cases found
      | cons c text =>
          rw [afterKeyword?] at found
          split at found
          · exact (ih found).trans (List.suffix_cons c text)
          · cases found

theorem upTo?_append {closing : Char} {run : Text} (filled : run ≠ []) (clear : closing ∉ run)
    (rest : Text) : upTo? closing (run ++ closing :: rest) = some (run, rest) := by
  have inside : ∀ c ∈ run, (c != closing) = true := by
    intro c member
    rw [bne_iff_ne]
    rintro rfl
    exact clear member
  have stops : Stops (· != closing) (closing :: rest) := stops_cons.mpr (by simp)
  rw [upTo?, takeWhile_append_of_stops inside stops, dropWhile_append_of_stops inside stops]
  cases run with
  | nil => exact (filled rfl).elim
  | cons c run => rfl

theorem eq_append_of_upTo? {closing : Char} {text run rest : Text}
    (found : upTo? closing text = some (run, rest)) :
    text = run ++ closing :: rest ∧ run ≠ [] ∧ closing ∉ run := by
  unfold upTo? at found
  split at found
  · cases found
  · cases found
  · next c tail dropped filled =>
      cases found
      have whole := List.takeWhile_append_dropWhile (p := (· != closing)) (l := text)
      have stops := stops_dropWhile (· != closing) text
      rw [dropped, stops_cons, bne_eq_false_iff_eq] at stops
      refine ⟨?_, ?_, ?_⟩
      · rw [dropped, stops] at whole
        exact whole.symm
      · intro empty
        exact filled empty
      · intro member
        exact absurd (mem_takeWhile member) (by simp)

/-! ## Blanks and shortest runs -/

/-- Blanks in front of something else are skipped. -/
theorem blanks?_append {blanks rest : Text} (filled : blanks ≠ []) (blank : Blank blanks)
    (stops : Stops isBlank rest) : blanks? (blanks ++ rest) = some rest := by
  cases blanks with
  | nil => exact (filled rfl).elim
  | cons c blanks =>
      rw [List.cons_append, blanks?, if_pos (blank c (by simp)),
        trimLeft_blank_append fun d member => blank d (List.mem_cons_of_mem c member),
        trimLeft_of_stops stops]

theorem afterBlanks_of_stops {α : Type} {read : Text → Option α} {text : Text}
    (stops : Stops isBlank text) : afterBlanks read text = read text := by
  cases text with
  | nil => rfl
  | cons c text => rw [afterBlanks, if_neg (by simp [stops_cons.mp stops])]

/-- Blanks in front are skipped when the reader succeeds behind them. -/
theorem afterBlanks_append {α : Type} {read : Text → Option α} {blanks text : Text}
    (blank : Blank blanks) (stops : Stops isBlank text) {found : α}
    (success : read text = some found) : afterBlanks read (blanks ++ text) = some found := by
  induction blanks with
  | nil => exact (afterBlanks_of_stops stops).trans success
  | cons c blanks ih =>
      rw [List.cons_append, afterBlanks, if_pos (blank c (by simp)),
        ih fun d member => blank d (List.mem_cons_of_mem c member)]

/-- The shortest run ends at the first acceptable place. -/
theorem shortestUntil_append {ends : Text → Bool} {run rest : Text} (filled : run ≠ [])
    (free : '\n' ∉ run)
    (early : ∀ back, back <:+ run → back ≠ [] → ends (back ++ rest) = false)
    (here : ends rest = true) : shortestUntil ends (run ++ rest) = some (run, rest) := by
  induction run with
  | nil => exact (filled rfl).elim
  | cons c run ih =>
      rw [List.mem_cons, not_or] at free
      rw [List.cons_append, shortestUntil, if_neg (Ne.symm free.1)]
      cases run with
      | nil => rw [List.nil_append, if_pos here]
      | cons d run =>
          have further : ∀ back, back <:+ d :: run → back ≠ [] → ends (back ++ rest) = false :=
            fun back suffix => early back (suffix.trans (List.suffix_cons c (d :: run)))
          have tooEarly : ¬ends (d :: run ++ rest) = true := by
            rw [further (d :: run) (List.suffix_refl _) (by simp)]
            decide
          rw [if_neg tooEarly, ih (by simp) free.2 further]
          rfl

end SchemaNotation.Text
