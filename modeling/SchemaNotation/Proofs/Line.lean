import SchemaNotation.Proofs.Text

/-!
# The lines of a written text

A writer puts line feeds between texts that have none.  Cutting the result into
physical lines gives these texts back.
-/

namespace SchemaNotation.Text

theorem lines_cons {c : Char} {text : Text} (noReturn : c ≠ '\r') (noFeed : c ≠ '\n') :
    lines (c :: text) = pushFront c (lines text) := by
  rw [lines.eq_3]
  · simp [noReturn, noFeed]
  · intro rest equal
    exact (noReturn equal).elim

theorem lines_feed (text : Text) : lines ('\n' :: text) = [] :: lines text := by
  rw [lines.eq_3]
  · simp
  · intro rest equal
    exact absurd equal (by decide)

/-- A line feed ends the line before it. -/
theorem lines_append_feed {line : Text} (free : LineFree line) (text : Text) :
    lines (line ++ '\n' :: text) = line :: lines text := by
  induction line with
  | nil => exact lines_feed text
  | cons c line ih =>
      rw [lineFree_cons] at free
      rw [List.cons_append, lines_cons free.1.1 free.1.2, ih free.2]
      rfl

/-- A line break ends the line before it. -/
theorem lines_append_break {line : Text} (free : LineFree line) {mark : Char}
    (breaks : mark = '\r' ∨ mark = '\n') (text : Text) :
    ∃ others, lines (line ++ mark :: text) = line :: others := by
  induction line with
  | nil =>
      rw [List.nil_append]
      by_cases pair : ∃ rest, mark = '\r' ∧ text = '\n' :: rest
      · obtain ⟨rest, rfl, rfl⟩ := pair
        exact ⟨_, lines.eq_2 rest⟩
      · rw [lines.eq_3 mark text fun rest isReturn shape => pair ⟨rest, isReturn, shape⟩,
          if_pos breaks]
        exact ⟨_, rfl⟩
  | cons c line ih =>
      obtain ⟨others, behind⟩ := ih (lineFree_cons.mp free).2
      obtain ⟨noReturn, noFeed⟩ := (lineFree_cons.mp free).1
      rw [List.cons_append, lines_cons noReturn noFeed, behind]
      exact ⟨others, rfl⟩

theorem lines_of_lineFree {text : Text} (free : LineFree text) : lines text = [text] := by
  induction text with
  | nil => rfl
  | cons c text ih =>
      obtain ⟨⟨noReturn, noFeed⟩, rest⟩ := lineFree_cons.mp free
      rw [lines_cons noReturn noFeed, ih rest]
      rfl

/-- The physical lines are cut out of the text. -/
theorem cut_lines (text : Text) : Cut text (lines text) := by
  fun_induction lines text with
  | case1 => exact cut_singleton []
  | case2 text ih =>
      exact ih.nil_cons ((List.suffix_cons '\n' text).trans (List.suffix_cons '\r' _))
  | case3 c text _ _ ih => exact ih.nil_cons (List.suffix_cons c text)
  | case4 c text _ _ ih => exact ih.pushFront c

/-- No physical line has a line break in it. -/
theorem lineFree_of_mem_lines {text line : Text} (member : line ∈ lines text) : LineFree line := by
  fun_induction lines text generalizing line with
  | case1 =>
      rw [List.mem_singleton] at member
      rw [member]
      exact lineFree_nil
  | case2 text ih =>
      rcases List.mem_cons.mp member with rfl | member
      · exact lineFree_nil
      · exact ih member
  | case3 c text _ breaks ih =>
      rcases List.mem_cons.mp member with rfl | member
      · exact lineFree_nil
      · exact ih member
  | case4 c text _ continues ih =>
      rw [not_or] at continues
      rcases mem_pushFront member with ⟨first, rfl | firstMem, rfl⟩ | member
      · simp [continues]
      · rw [lineFree_cons]
        exact ⟨continues, ih firstMem⟩
      · exact ih member

/-- The lines of several texts with a line feed behind each. -/
theorem lines_intercalate {written : List Text} (nonempty : written ≠ [])
    (free : ∀ line ∈ written, LineFree line) (rest : Text) :
    lines (List.intercalate ['\n'] written ++ '\n' :: rest) = written ++ lines rest := by
  induction written with
  | nil => exact (nonempty rfl).elim
  | cons line written ih =>
      have lineIsFree := free line (by simp)
      cases written with
      | nil =>
          rw [List.intercalate_singleton, lines_append_feed lineIsFree]
          rfl
      | cons next written =>
          have others : ∀ other ∈ next :: written, LineFree other := by
            intro other member
            exact free other (List.mem_cons_of_mem line member)
          rw [List.intercalate_cons_cons, List.append_assoc, List.append_assoc,
            List.singleton_append, lines_append_feed lineIsFree, ih (by simp) others]
          rfl

/-- Blocks of lines with a blank line between them and a line feed at the end: each
block is followed by a blank line. -/
theorem lines_blocks {blocks : List (List Text)} (nonempty : blocks ≠ [])
    (filled : ∀ block ∈ blocks, block ≠ []) (free : ∀ block ∈ blocks, ∀ line ∈ block, LineFree line) :
    lines (List.intercalate ['\n', '\n'] (blocks.map (List.intercalate ['\n'])) ++ ['\n']) =
      blocks.flatMap (· ++ [[]]) := by
  induction blocks with
  | nil => exact (nonempty rfl).elim
  | cons block blocks ih =>
      have blockFilled := filled block (by simp)
      have blockFree := free block (by simp)
      cases blocks with
      | nil =>
          rw [List.map_singleton, List.intercalate_singleton, List.flatMap_singleton,
            lines_intercalate blockFilled blockFree]
          rfl
      | cons next blocks =>
          have rest := ih (by simp) (fun other member => filled other (by simp [member]))
            (fun other member => free other (by simp [member]))
          rw [List.map_cons, List.map_cons, List.intercalate_cons_cons, ← List.map_cons,
            List.append_assoc, List.append_assoc, List.cons_append,
            lines_intercalate blockFilled blockFree, List.singleton_append, lines_feed, rest]
          simp

end SchemaNotation.Text
