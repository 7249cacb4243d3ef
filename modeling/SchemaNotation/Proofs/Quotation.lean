import SchemaNotation.Proofs.Identifier

/-!
# Names between backticks

A written name is read back in front of everything that cannot continue it, with one
exception: a plain identifier with a line feed behind it, which is written without quotes.
The reader accepts more than the written names.  A quote that is never closed, because
every backtick of the text has its partner, is read up to its last pair.
-/

namespace SchemaNotation.Identifier

variable {text name rest tail : Text}

/-! ## Written names -/

/-- A name with a backtick in it is never written bare. -/
theorem unambiguous_of_marked (marked : backtick ∈ name) : Unambiguous name := by
  rintro stem plain rfl
  rcases List.mem_append.mp marked with inside | last
  · exact absurd (isContinue_of_isPlain plain backtick inside) (by decide)
  · exact absurd (List.mem_singleton.mp last) (by decide)

/-- The line feed behind a plain name is written without quotes and left unread. -/
theorem read?_render_feed {stem : Text} (plain : isPlain stem = true) (rest : Text) :
    read? (render (stem ++ ['\n']) ++ rest) = some (stem, '\n' :: rest) := by
  have bare : render (stem ++ ['\n']) = stem ++ ['\n'] := by
    simp [render, isBare, plain]
  rw [bare, List.append_assoc, List.singleton_append]
  exact (Denotes.plain plain).read? (Text.stops_cons.mpr (by decide))
    (Text.stops_cons.mpr (by decide))

/-- A written name is read back, whatever follows that cannot continue it, exactly when it is
not a plain identifier with a line feed behind it.  So the empty name is read back, and every
name with backticks in it. -/
theorem reads_back_iff (noMark : Text.Stops (· == backtick) rest)
    (stops : Text.Stops isContinue rest) :
    (read? (render name ++ rest) = some (name, rest) ↔ Unambiguous name) ∧
    (name = [] ∨ backtick ∈ name → read? (render name ++ rest) = some (name, rest)) := by
  have back : Unambiguous name → read? (render name ++ rest) = some (name, rest) :=
    fun unambiguous => unambiguous.denotes_render.read? noMark stops
  refine ⟨⟨?_, back⟩, ?_⟩
  · rintro found stem plain rfl
    rw [read?_render_feed plain, Option.some.injEq, Prod.mk.injEq] at found
    simpa using found.1
  · rintro (rfl | marked)
    · exact back (unambiguous_of_free (by simp))
    · exact back (unambiguous_of_marked marked)

theorem reads_back_iff_marked :
    Text.Stops (· == backtick) "?: int;".toList ∧ Text.Stops isContinue "?: int;".toList ∧
    read? (render "``a`b```".toList ++ "?: int;".toList) =
      some ("``a`b```".toList, "?: int;".toList) ∧
    ¬read? (render "a\n".toList ++ "?: int;".toList) = some ("a\n".toList, "?: int;".toList) := by
  have noMark : Text.Stops (· == backtick) "?: int;".toList := Text.stops_cons.mpr (by decide)
  have stops : Text.Stops isContinue "?: int;".toList := Text.stops_cons.mpr (by decide)
  refine ⟨noMark, stops, (reads_back_iff noMark stops).2 (Or.inr (by decide)), ?_⟩
  rw [(reads_back_iff noMark stops).1]
  decide

/-! ## Quotes that are never closed -/

/-- A text behind an opening backtick in which every backtick has its partner, paired from the
left, so that none of them closes the quote. -/
def Unclosed (text : Text) : Prop :=
  ∃ name, Run text name

theorem double_of_unmarked (unmarked : backtick ∉ name) : double name = name := by
  induction name with
  | nil => rfl
  | cons c name ih =>
      rw [List.mem_cons, not_or] at unmarked
      rw [double_cons_of_ne (Ne.symm unmarked.1), ih unmarked.2]

theorem unclosed_double (name : Text) : Unclosed (double name) :=
  ⟨name, run_iff.mpr rfl⟩

/-- A text whose last backticks are a pair and all others are paired, too. -/
theorem unclosed_of_last_pair (name : Text) (unmarked : backtick ∉ tail) :
    Unclosed (double name ++ backtick :: backtick :: tail) := by
  have whole : double (name ++ backtick :: tail) =
      double name ++ backtick :: backtick :: tail := by
    rw [double_append, double_backtick, double_of_unmarked unmarked]
  rw [← whole]
  exact unclosed_double _

theorem closing?_eq_none_iff : closing? text = none ↔ Unclosed text := by
  constructor
  · unfold closing?
    fun_induction Text.delimited? backtick text with
    | case1 => exact fun _ => unclosed_double []
    | case2 => simp
    | case3 c other => exact fun _ => ⟨[c], .other other .nil⟩
    | case4 c next text other ih =>
        intro failed
        obtain ⟨name, run⟩ := ih (Option.map_eq_none_iff.mp failed)
        exact ⟨c :: name, .other other run⟩
    | case5 c text isMark ih =>
        intro failed
        obtain ⟨name, run⟩ := ih (Option.map_eq_none_iff.mp failed)
        rw [ne_eq, Decidable.not_not] at isMark
        exact ⟨backtick :: name, isMark ▸ .pair run⟩
    | case6 => simp
  · rintro ⟨name, run⟩
    rw [run_iff.mp run]
    exact closing?_double_eq_none name

/-! ## The last pair -/

theorem closingAtPair?_cons_of_ne {c : Char} (other : c ≠ backtick) (filled : text ≠ []) :
    closingAtPair? (c :: text) = (closingAtPair? text).map fun (name, rest) => (c :: name, rest) := by
  cases text with
  | nil => exact (filled rfl).elim
  | cons next text => rw [closingAtPair?, if_pos other]

theorem closingAtPair?_of_unmarked (unmarked : backtick ∉ text) : closingAtPair? text = none := by
  induction text with
  | nil => rfl
  | cons c text ih =>
      rw [List.mem_cons, not_or] at unmarked
      cases text with
      | nil => rfl
      | cons next text =>
          rw [closingAtPair?_cons_of_ne (Ne.symm unmarked.1) (List.cons_ne_nil _ _), ih unmarked.2]
          rfl

theorem closingAtPair?_last_pair (name : Text) (unmarked : backtick ∉ tail) :
    closingAtPair? (double name ++ backtick :: backtick :: tail) = some (name, backtick :: tail) := by
  induction name with
  | nil => simp [closingAtPair?, closingAtPair?_of_unmarked unmarked]
  | cons c name ih =>
      by_cases isMark : c = backtick
      · rw [isMark, double_backtick, List.cons_append, List.cons_append]
        simp [closingAtPair?, ih]
      · rw [double_cons_of_ne isMark, List.cons_append,
          closingAtPair?_cons_of_ne isMark (by simp), ih]
        rfl

/-- The backtick that a name has last. -/
theorem exists_last_mark (marked : backtick ∈ name) :
    ∃ front tail, backtick ∉ tail ∧ name = front ++ backtick :: tail := by
  obtain ⟨tail, front, reversed, unmarked⟩ :=
    List.eq_append_cons_of_mem (List.mem_reverse.mpr marked)
  refine ⟨front.reverse, tail.reverse, by simpa using unmarked, ?_⟩
  rw [← List.reverse_reverse name, reversed]
  simp

/-! ## What is read -/

/-- What can stand behind an opening backtick: a name that is closed, a quote that ends in its
last pair, or no further backtick. -/
theorem quote_cases (text : Text) :
    (∃ name rest, Text.Stops (· == backtick) rest ∧ text = double name ++ backtick :: rest) ∨
    (∃ name tail, backtick ∉ tail ∧ text = double name ++ backtick :: backtick :: tail) ∨
    backtick ∉ text := by
  cases closed : closing? text with
  | some found =>
      obtain ⟨equal, stops⟩ := eq_double_of_closing? closed
      exact Or.inl ⟨_, _, stops, equal⟩
  | none =>
      obtain ⟨whole, run⟩ := closing?_eq_none_iff.mp closed
      rw [run_iff] at run
      by_cases marked : backtick ∈ whole
      · obtain ⟨name, tail, unmarked, rfl⟩ := exists_last_mark marked
        refine Or.inr (Or.inl ⟨name, tail, unmarked, ?_⟩)
        rw [run, double_append, double_backtick, double_of_unmarked unmarked]
      · refine Or.inr (Or.inr ?_)
        rwa [run, double_of_unmarked marked]

theorem read?_last_pair (name : Text) (unmarked : backtick ∉ tail) :
    read? (quote name ++ backtick :: tail) = some (name, backtick :: tail) := by
  rw [quote, List.cons_append, List.cons_append, read?, if_pos rfl, List.append_assoc,
    List.singleton_append, closing?_eq_none_iff.mpr (unclosed_of_last_pair name unmarked)]
  exact closingAtPair?_last_pair name unmarked

theorem read?_of_unmarked (unmarked : backtick ∉ text) : read? (backtick :: text) = none := by
  have unclosed : Unclosed text := ⟨text, run_iff.mpr (double_of_unmarked unmarked).symm⟩
  rw [read?, if_pos rfl, closing?_eq_none_iff.mpr unclosed]
  exact closingAtPair?_of_unmarked unmarked

/-- What may follow a quoted name: no backtick, or the second one of the last pair. -/
def EndsQuote (rest : Text) : Prop :=
  Text.Stops (· == backtick) rest ∨ ∃ tail, rest = backtick :: tail ∧ backtick ∉ tail

theorem EndsQuote.read?_quote (ends : EndsQuote rest) (name : Text) :
    read? (quote name ++ rest) = some (name, rest) := by
  rcases ends with stops | ⟨tail, rfl, unmarked⟩
  · exact Identifier.read?_quote name stops
  · exact read?_last_pair name unmarked

theorem quote_append (name rest : Text) :
    quote name ++ rest = backtick :: (double name ++ backtick :: rest) := by
  simp [quote]

/-- A quoted name is read exactly where it stands in front of something that ends it. -/
theorem read?_mark_eq_some_iff :
    read? (backtick :: text) = some (name, rest) ↔
      backtick :: text = quote name ++ rest ∧ EndsQuote rest := by
  constructor
  · intro found
    have stands : ∀ {other behind}, EndsQuote behind →
        text = double other ++ backtick :: behind →
        backtick :: text = quote name ++ rest ∧ EndsQuote rest := by
      rintro other behind ends rfl
      rw [← quote_append, ends.read?_quote, Option.some.injEq, Prod.mk.injEq] at found
      obtain ⟨rfl, rfl⟩ := found
      exact ⟨(quote_append ..).symm, ends⟩
    rcases quote_cases text with ⟨_, _, stops, closed⟩ | ⟨_, tail, unmarked, paired⟩ | unmarked
    · exact stands (Or.inl stops) closed
    · exact stands (Or.inr ⟨tail, rfl, unmarked⟩) paired
    · rw [read?_of_unmarked unmarked] at found
      cases found
  · rintro ⟨equal, ends⟩
    rw [equal, ends.read?_quote]

/-- Behind an opening backtick, nothing is read exactly when no other follows. -/
theorem read?_mark_eq_none_iff : read? (backtick :: text) = none ↔ backtick ∉ text := by
  refine ⟨fun failed => ?_, read?_of_unmarked⟩
  rcases quote_cases text with ⟨_, _, stops, rfl⟩ | ⟨_, tail, unmarked, rfl⟩ | unmarked
  · rw [← quote_append, read?_quote _ stops] at failed
    cases failed
  · rw [← quote_append, read?_last_pair _ unmarked] at failed
    cases failed
  · exact unmarked

/-- What stands behind a quoted name tells whether the quote is closed. -/
theorem EndsQuote.stops_iff (ends : EndsQuote rest) (name : Text) :
    Text.Stops (· == backtick) rest ↔ ¬Unclosed (double name ++ backtick :: rest) := by
  constructor
  · intro stops
    rw [← closing?_eq_none_iff, closing?_double name stops]
    simp
  · intro closed
    rcases ends with stops | ⟨tail, rfl, unmarked⟩
    · exact stops
    · exact (closed (unclosed_of_last_pair name unmarked)).elim

/-- A quoted name is read exactly when it stands there with its backticks doubled, in front of
something that ends it: a text that does not go on with a backtick, or the second backtick of
the last pair.  Nothing is read exactly when no second backtick follows at all.  And what is
left starts with a backtick exactly when the quote is never closed. -/
theorem reads_quoted (text : Text) :
    (∀ name rest, read? (backtick :: text) = some (name, rest) ↔
      backtick :: text = quote name ++ rest ∧ EndsQuote rest) ∧
    (read? (backtick :: text) = none ↔ backtick ∉ text) ∧
    ∀ name rest, read? (backtick :: text) = some (name, rest) →
      (Text.Stops (· == backtick) rest ↔ ¬Unclosed text) := by
  refine ⟨fun _ _ => read?_mark_eq_some_iff, read?_mark_eq_none_iff, ?_⟩
  intro name rest found
  obtain ⟨equal, ends⟩ := read?_mark_eq_some_iff.mp found
  rw [quote_append, List.cons.injEq] at equal
  obtain ⟨_, rfl⟩ := equal
  exact ends.stops_iff name

theorem reads_quoted_unclosed :
    read? "`a``b".toList = some ("a".toList, "`b".toList) ∧
    ¬Text.Stops (· == backtick) "`b".toList ∧
    read? "`a b".toList = none := by
  have ends : EndsQuote "`b".toList := Or.inr ⟨"b".toList, rfl, by decide⟩
  have found : read? "`a``b".toList = some ("a".toList, "`b".toList) :=
    ((reads_quoted "a``b".toList).1 _ _).mpr ⟨rfl, ends⟩
  refine ⟨found, fun stops => ?_, (reads_quoted "a b".toList).2.1.mpr (by decide)⟩
  exact ((reads_quoted "a``b".toList).2.2 _ _ found).mp stops (unclosed_double "a`b".toList)

/-- A pair of backticks closes a quote that nothing else closes. -/
theorem unclosed_quote_read :
    Unclosed "a``b".toList ∧ read? "`a``b".toList = some ("a".toList, "`b".toList) :=
  ⟨unclosed_double "a`b".toList, by decide⟩

end SchemaNotation.Identifier
