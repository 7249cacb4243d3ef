import SchemaNotation.Document
import SchemaNotation.Proofs.Line

/-!
# Ends of lines

The reader cuts a text into lines in one pass, at line feeds, at carriage returns, and at the
two together.  The same lines come out when the pairs and then the single carriage returns are
replaced by line feeds, and the text is cut at these.  So a document is read in one way,
whatever its lines end with.
-/

namespace SchemaNotation

namespace Text

/-! ## Replacing a text -/

section Replace

variable (first : Char) (others new : Text)

/-- Put a new text in the place of each occurrence of an old one, which is given as its first
character and the others.  Occurrences are looked for from the left and do not overlap. -/
def replace : Text → Text
  | [] => []
  | c :: text =>
      match _ : after? (first :: others) (c :: text) with
      | some rest => new ++ replace rest
      | none => c :: replace text
termination_by text => text.length
decreasing_by
  · have whole := congrArg List.length (eq_append_of_after? ‹_›)
    simp only [List.length_append, List.length_cons] at whole ⊢
    omega
  · exact Nat.lt_succ_self text.length

theorem replace_nil : replace first others new [] = [] := by
  rw [replace]

theorem replace_append (rest : Text) :
    replace first others new (first :: (others ++ rest)) = new ++ replace first others new rest := by
  have found : after? (first :: others) (first :: (others ++ rest)) = some rest :=
    after?_append (first :: others) rest
  rw [replace]
  split
  · next other same =>
      rw [found] at same
      cases same
      rfl
  · next absent =>
      rw [found] at absent
      cases absent

theorem replace_cons {c : Char} {text : Text} (absent : after? (first :: others) (c :: text) = none) :
    replace first others new (c :: text) = c :: replace first others new text := by
  rw [replace]
  split
  · next rest found =>
      rw [absent] at found
      cases found
  · rfl

theorem replace_cons_of_ne {c : Char} (different : c ≠ first) (text : Text) :
    replace first others new (c :: text) = c :: replace first others new text := by
  apply replace_cons
  rw [after?, if_neg different]

theorem replace_of_not_mem {text : Text} (absent : first ∉ text) :
    replace first others new text = text := by
  induction text with
  | nil => exact replace_nil first others new
  | cons c text ih =>
      rw [List.mem_cons, not_or] at absent
      rw [replace_cons_of_ne first others new (Ne.symm absent.1), ih absent.2]

/-- A character that is replaced is left nowhere. -/
theorem not_mem_replace (clear : first ∉ new) (text : Text) : first ∉ replace first [] new text := by
  induction text with
  | nil => simp [replace_nil]
  | cons c text ih =>
      by_cases same : c = first
      · have replaced := replace_append first [] new text
        rw [List.nil_append] at replaced
        rw [same, replaced, List.mem_append, not_or]
        exact ⟨clear, ih⟩
      · rw [replace_cons_of_ne first [] new same, List.mem_cons, not_or]
        exact ⟨Ne.symm same, ih⟩

end Replace

/-! ## Line feeds only -/

/-- The text with line feeds at the ends of all lines: first each pair of a carriage return and
a line feed is replaced by a line feed, and then each carriage return. -/
def withFeeds (text : Text) : Text :=
  replace '\r' [] ['\n'] (replace '\r' ['\n'] ['\n'] text)

theorem not_mem_withFeeds (text : Text) : '\r' ∉ withFeeds text :=
  not_mem_replace '\r' ['\n'] (by decide) _

theorem withFeeds_nil : withFeeds [] = [] := by
  rw [withFeeds, replace_nil, replace_nil]

theorem withFeeds_cons {c : Char} (noReturn : c ≠ '\r') (text : Text) :
    withFeeds (c :: text) = c :: withFeeds text := by
  rw [withFeeds, replace_cons_of_ne _ _ _ noReturn, replace_cons_of_ne _ _ _ noReturn]
  rfl

theorem withFeeds_pair (text : Text) :
    withFeeds ('\r' :: '\n' :: text) = '\n' :: withFeeds text := by
  have pair := replace_append '\r' ['\n'] ['\n'] text
  rw [List.singleton_append, List.singleton_append] at pair
  rw [withFeeds, pair, replace_cons_of_ne _ _ _ (by decide)]
  rfl

/-- A carriage return that no line feed follows is replaced alone. -/
theorem withFeeds_return {text : Text} (alone : ∀ rest, text ≠ '\n' :: rest) :
    withFeeds ('\r' :: text) = '\n' :: withFeeds text := by
  have noPair : after? ['\r', '\n'] ('\r' :: text) = none := by
    cases found : after? ['\r', '\n'] ('\r' :: text) with
    | none => rfl
    | some rest =>
        have whole := eq_append_of_after? found
        exact (alone rest (List.cons.inj whole).2).elim
  have single := replace_append '\r' [] ['\n'] (replace '\r' ['\n'] ['\n'] text)
  rw [List.nil_append, List.singleton_append] at single
  rw [withFeeds, replace_cons _ _ _ noPair, single]
  rfl

/-- Once all lines end with line feeds, nothing is left to replace. -/
theorem withFeeds_withFeeds (text : Text) : withFeeds (withFeeds text) = withFeeds text := by
  have clear := not_mem_withFeeds text
  rw [withFeeds, replace_of_not_mem _ _ _ clear, replace_of_not_mem _ _ _ clear]

theorem lines_eq (text : Text) : lines text = splitOn '\n' (withFeeds text) := by
  fun_induction lines text with
  | case1 =>
      rw [withFeeds_nil]
      rfl
  | case2 text ih => rw [withFeeds_pair, splitOn, if_pos rfl, ih]
  | case3 c text single breaks ih =>
      have replaced : withFeeds (c :: text) = '\n' :: withFeeds text := by
        rcases breaks with rfl | rfl
        · exact withFeeds_return fun rest pair => single rest rfl pair
        · exact withFeeds_cons (by decide) text
      rw [replaced, splitOn, if_pos rfl, ih]
  | case4 c text _ continues ih =>
      rw [not_or] at continues
      rw [withFeeds_cons continues.1, splitOn, if_neg continues.2, ih]

theorem lines_withFeeds (text : Text) : lines (withFeeds text) = lines text := by
  rw [lines_eq, lines_eq, withFeeds_withFeeds]

end Text

namespace Schema

/-- The lines of a text are the pieces between the line feeds that take the place of its line
ends, and none of them has a line break in it.  A document is read alike with its own line ends
and with line feeds:  both give the same schema, or the same error with its line and text. -/
theorem reads_any_line_ends (text : Text) :
    (Cursor.ofText text).lines = Text.splitOn '\n' (Text.withFeeds text) ∧
      (∀ line ∈ (Cursor.ofText text).lines, '\r' ∉ line ∧ '\n' ∉ line) ∧
      ∀ options, Schema.read options text = Schema.read options (Text.withFeeds text) := by
  refine ⟨Text.lines_eq text, fun line member => Text.lineFree_of_mem_lines member, ?_⟩
  intro options
  rw [Schema.read, Schema.read, Text.lines_withFeeds]

/-- Five lines with all kinds of ends, the last of which cannot be read. -/
def mixedEnds : Text :=
  "\r\r\n// x\n\ry".toList

theorem reads_any_line_ends_mixedEnds :
    Text.splitOn '\n' (Text.withFeeds mixedEnds) =
        ["".toList, "".toList, "// x".toList, "".toList, "y".toList] ∧
      ('\r' ∉ "// x".toList ∧ '\n' ∉ "// x".toList) ∧
      Schema.read {} (Text.withFeeds mixedEnds) = .error (.malformed {
        line := 5, defect := .unexpectedContent "y".toList, source := "y".toList }) := by
  obtain ⟨cut, free, same⟩ := reads_any_line_ends mixedEnds
  have lines : (Cursor.ofText mixedEnds).lines =
      ["".toList, "".toList, "// x".toList, "".toList, "y".toList] := by
    decide
  have failed : Schema.read {} mixedEnds = .error (.malformed {
      line := 5, defect := .unexpectedContent "y".toList, source := "y".toList }) := by
    decide
  rw [lines] at cut free
  exact ⟨cut.symm, free _ (by simp), (same {}).symm.trans failed⟩

end Schema

end SchemaNotation
