import SchemaNotation.Proofs.Character

/-!
# Written identifiers read back

Doubling the backticks of a name and reading up to the first backtick without a
partner are inverse to each other.  A written name is therefore read back whatever
it consists of, provided that what follows it cannot continue it.
-/

namespace SchemaNotation.Identifier

@[simp] theorem double_nil : double [] = [] := rfl

@[simp] theorem double_backtick (name : Text) :
    double (backtick :: name) = backtick :: backtick :: double name := rfl

theorem double_cons_of_ne {c : Char} (other : c ≠ backtick) (name : Text) :
    double (c :: name) = c :: double name := by
  simp [double, other]

theorem head?_double (name : Text) : (double name).head? = name.head? := by
  cases name with
  | nil => rfl
  | cons c name =>
      by_cases isMark : c = backtick
      · rw [isMark, double_backtick]
        rfl
      · rw [double_cons_of_ne isMark]
        rfl

/-- Doubling leaves the word at the start of a name, and what follows it starts alike. -/
theorem takeWhile_double (name : Text) :
    (double name).takeWhile isWord = name.takeWhile isWord := by
  have other : isWord backtick = false := by decide
  induction name with
  | nil => rfl
  | cons c name ih =>
      by_cases isMark : c = backtick
      · rw [isMark, double_backtick, List.takeWhile_cons, List.takeWhile_cons, other]
        rfl
      · rw [double_cons_of_ne isMark, List.takeWhile_cons, List.takeWhile_cons, ih]

theorem head?_dropWhile_double (name : Text) :
    ((double name).dropWhile isWord).head? = (name.dropWhile isWord).head? := by
  have other : isWord backtick = false := by decide
  induction name with
  | nil => rfl
  | cons c name ih =>
      by_cases isMark : c = backtick
      · rw [isMark, double_backtick, List.dropWhile_cons, List.dropWhile_cons, other]
        rfl
      · rw [double_cons_of_ne isMark, List.dropWhile_cons, List.dropWhile_cons]
        cases word : isWord c with
        | true => exact ih
        | false => rfl

/-- Doubling adds no character that is not there already. -/
theorem double_subset (name : Text) : double name ⊆ name := by
  intro c member
  simp only [double, List.mem_flatMap] at member
  obtain ⟨source, sourceMem, member⟩ := member
  split at member
  · next equal =>
      simp only [List.mem_cons, List.not_mem_nil, or_false, or_self] at member
      rw [member, ← equal]
      exact sourceMem
  · rw [List.mem_singleton] at member
    rw [member]
    exact sourceMem

theorem subset_double (name : Text) : name ⊆ double name := by
  intro c member
  simp only [double, List.mem_flatMap]
  refine ⟨c, member, ?_⟩
  split <;> simp_all

/-- A backtick that is followed by no second one ends a quoted name. -/
theorem closing?_backtick {rest : Text} (stops : Text.Stops (· == backtick) rest) :
    closing? (backtick :: rest) = some ([], rest) := by
  cases rest with
  | nil => rfl
  | cons c rest =>
      have other : c ≠ backtick := by simpa using Text.stops_cons.mp stops
      simp [closing?, Text.delimited?, other]

/-- Two backticks stand for one. -/
theorem closing?_pair (text : Text) :
    closing? (backtick :: backtick :: text) =
      (closing? text).map fun (run, rest) => (backtick :: run, rest) := by
  simp [closing?, Text.delimited?]

theorem closing?_cons_of_ne {c : Char} (other : c ≠ backtick) {text : Text} (nonempty : text ≠ []) :
    closing? (c :: text) = (closing? text).map fun (run, rest) => (c :: run, rest) := by
  cases text with
  | nil => exact (nonempty rfl).elim
  | cons next text => simp [closing?, Text.delimited?, other]

/-- A doubled name is read back up to its closing backtick. -/
theorem closing?_double (name : Text) {rest : Text} (stops : Text.Stops (· == backtick) rest) :
    closing? (double name ++ backtick :: rest) = some (name, rest) := by
  induction name with
  | nil => exact closing?_backtick stops
  | cons c name ih =>
      by_cases isMark : c = backtick
      · rw [isMark, double_backtick, List.cons_append, List.cons_append, closing?_pair, ih]
        rfl
      · rw [double_cons_of_ne isMark, List.cons_append, closing?_cons_of_ne isMark (by simp), ih]
        rfl

/-- A quoted name that could be read is the doubled form of what was read, and no
backtick follows its closing one. -/
theorem eq_double_of_closing? {text name rest : Text} (found : closing? text = some (name, rest)) :
    text = double name ++ backtick :: rest ∧ Text.Stops (· == backtick) rest := by
  unfold closing? at found
  fun_induction Text.delimited? backtick text generalizing name rest with
  | case1 => simp at found
  | case2 =>
      simp only [Option.some.injEq, Prod.mk.injEq] at found
      obtain ⟨rfl, rfl⟩ := found
      exact ⟨rfl, Text.stops_nil _⟩
  | case3 => simp at found
  | case4 c next text other ih =>
      simp only [Option.map_eq_some_iff, Prod.mk.injEq] at found
      obtain ⟨⟨run, tail⟩, found, rfl, rfl⟩ := found
      obtain ⟨equal, stops⟩ := ih found
      refine ⟨?_, stops⟩
      rw [double_cons_of_ne other, equal, List.cons_append]
  | case5 c text isMark ih =>
      simp only [Option.map_eq_some_iff, Prod.mk.injEq] at found
      obtain ⟨⟨run, tail⟩, found, rfl, rfl⟩ := found
      obtain ⟨equal, stops⟩ := ih found
      refine ⟨?_, stops⟩
      simp only [ne_eq, Decidable.not_not] at isMark
      rw [isMark, double_backtick, equal, List.cons_append, List.cons_append]
  | case6 c next text isMark other =>
      simp only [Option.some.injEq, Prod.mk.injEq] at found
      obtain ⟨rfl, rfl⟩ := found
      simp only [ne_eq, Decidable.not_not] at isMark
      refine ⟨by rw [isMark]; rfl, ?_⟩
      rw [Text.stops_cons]
      simpa using other

/-- A quote closed at a pair leaves the second backtick of the pair unread. -/
theorem closingAtPair?_rest {text name rest : Text}
    (found : closingAtPair? text = some (name, rest)) : rest.head? = some backtick := by
  fun_induction closingAtPair? text generalizing name rest with
  | case1 => simp at found
  | case2 => simp at found
  | case3 c next text other ih =>
      simp only [Option.map_eq_some_iff, Prod.mk.injEq] at found
      obtain ⟨⟨run, tail⟩, found, _, rfl⟩ := found
      exact ih found
  | case4 c text isMark run tail found' ih =>
      simp only [Option.some.injEq, Prod.mk.injEq] at found
      rw [← found.2]
      exact ih found'
  | case5 c text isMark found' =>
      simp only [Option.some.injEq, Prod.mk.injEq] at found
      rw [← found.2]
      rfl
  | case6 => simp at found

/-! ## The written form of a name -/

/-- A name that is not a plain identifier with one line feed behind it, which is the only
name that is written bare without being plain. -/
def Unambiguous (name : Text) : Prop :=
  ∀ stem, isPlain stem = true → name ≠ stem ++ ['\n']

theorem unambiguous_of_free {name : Text} (free : '\n' ∉ name) : Unambiguous name := by
  rintro stem _ rfl
  exact free (by simp)

theorem isBare_eq_isPlain {name : Text} (unambiguous : Unambiguous name) :
    isBare name = isPlain name := by
  unfold isBare
  cases fed : name.getLast? == some '\n' && isPlain name.dropLast with
  | false => rw [Bool.or_false]
  | true =>
      rw [Bool.and_eq_true, beq_iff_eq] at fed
      obtain ⟨last, plain⟩ := fed
      exact (unambiguous name.dropLast plain (List.dropLast_append_getLast? '\n' last).symm).elim

theorem render_of_isPlain {name : Text} (plain : isPlain name = true) : render name = name := by
  simp [render, isBare, plain]

theorem render_of_not_isPlain {name : Text} (unambiguous : Unambiguous name)
    (special : isPlain name = false) : render name = quote name := by
  simp [render, isBare_eq_isPlain unambiguous, special]

/-- The two forms in which a name is written. -/
theorem Unambiguous.render_cases {name : Text} (unambiguous : Unambiguous name) :
    (isPlain name = true ∧ render name = name) ∨
      (isPlain name = false ∧ render name = quote name) := by
  cases plain : isPlain name with
  | true => exact Or.inl ⟨rfl, render_of_isPlain plain⟩
  | false => exact Or.inr ⟨rfl, render_of_not_isPlain unambiguous plain⟩

theorem render_cases {name : Text} (free : '\n' ∉ name) :
    (isPlain name = true ∧ render name = name) ∨
      (isPlain name = false ∧ render name = quote name) :=
  (unambiguous_of_free free).render_cases

theorem isContinue_of_isPlain {name : Text} (plain : isPlain name = true) :
    ∀ c ∈ name, isContinue c = true := by
  cases name with
  | nil => simp [isPlain] at plain
  | cons first name =>
      simp only [isPlain, Bool.and_eq_true, List.all_eq_true] at plain
      intro c member
      rcases List.mem_cons.mp member with rfl | member
      · exact isContinue_of_isStart plain.1
      · exact plain.2 c member

theorem unambiguous_iff {name : Text} : Unambiguous name ↔ isBare name = isPlain name := by
  constructor
  · exact isBare_eq_isPlain
  · rintro same stem plain rfl
    have bare : isBare (stem ++ ['\n']) = true := by
      simp [isBare, plain]
    rw [same] at bare
    exact absurd (isContinue_of_isPlain bare '\n' (by simp)) (by decide)

instance (name : Text) : Decidable (Unambiguous name) :=
  decidable_of_iff _ unambiguous_iff.symm

theorem isStart_ne_backtick {c : Char} (starts : isStart c = true) : c ≠ backtick := by
  intro equal
  rw [equal] at starts
  exact absurd starts (by decide)

/-- A plain identifier is read as far as it goes. -/
theorem readPlain?_append {name rest : Text} (plain : isPlain name = true)
    (stops : Text.Stops isContinue rest) : readPlain? (name ++ rest) = some (name, rest) := by
  cases name with
  | nil => simp [isPlain] at plain
  | cons c name =>
      simp only [isPlain, Bool.and_eq_true, List.all_eq_true] at plain
      rw [List.cons_append, readPlain?, if_pos plain.1,
        Text.takeWhile_append_of_stops plain.2 stops, Text.dropWhile_append_of_stops plain.2 stops]

/-- What a plain identifier was read from, and where the reading stopped. -/
theorem eq_append_of_readPlain? {text name rest : Text}
    (found : readPlain? text = some (name, rest)) :
    text = name ++ rest ∧ isPlain name = true ∧ Text.Stops isContinue rest := by
  cases text with
  | nil => simp [readPlain?] at found
  | cons c text =>
      simp only [readPlain?] at found
      split at found
      · next starts =>
          simp only [Option.some.injEq, Prod.mk.injEq] at found
          obtain ⟨rfl, rfl⟩ := found
          refine ⟨?_, ?_, Text.stops_dropWhile isContinue text⟩
          · rw [List.cons_append, List.takeWhile_append_dropWhile]
          · simp [isPlain, starts]
      · simp at found

theorem readQuoted?_quote (name : Text) {rest : Text} (stops : Text.Stops (· == backtick) rest) :
    readQuoted? (quote name ++ rest) = some (name, rest) := by
  simp [readQuoted?, quote, closing?_double name stops]

theorem eq_append_of_readQuoted? {text name rest : Text}
    (found : readQuoted? text = some (name, rest)) :
    text = quote name ++ rest ∧ Text.Stops (· == backtick) rest := by
  cases text with
  | nil => cases found
  | cons c text =>
      rw [readQuoted?] at found
      split at found
      · next isMark =>
          obtain ⟨equal, stops⟩ := eq_double_of_closing? found
          refine ⟨?_, stops⟩
          rw [equal, isMark, quote]
          simp
      · cases found

theorem readQuoted?_of_isPlain {name : Text} (plain : isPlain name = true) (rest : Text) :
    readQuoted? (name ++ rest) = none := by
  cases name with
  | nil => simp [isPlain] at plain
  | cons c name =>
      simp only [isPlain, Bool.and_eq_true] at plain
      simp [readQuoted?, isStart_ne_backtick plain.1]

/-! ## The texts of identifiers -/

/-- The run between two backticks that stands for the name: every backtick of the name is
written twice, and every other character as it is. -/
inductive Run : Text → Text → Prop where
  | nil : Run [] []
  | other {c : Char} {run name : Text} : c ≠ backtick → Run run name → Run (c :: run) (c :: name)
  | pair {run name : Text} : Run run name → Run (backtick :: backtick :: run) (backtick :: name)

/-- The text denotes the name: a plain identifier denotes itself, and any name is denoted by a
run between backticks. -/
inductive Denotes : Text → Text → Prop where
  | plain {name : Text} : isPlain name = true → Denotes name name
  | quoted {run name : Text} : Run run name → Denotes (backtick :: run ++ [backtick]) name

theorem run_iff {run name : Text} : Run run name ↔ run = double name := by
  constructor
  · intro stands
    induction stands with
    | nil => rfl
    | other other _ ih => rw [double_cons_of_ne other, ih]
    | pair _ ih => rw [double_backtick, ih]
  · rintro rfl
    induction name with
    | nil => exact .nil
    | cons c name ih =>
        by_cases isMark : c = backtick
        · rw [isMark, double_backtick]
          exact .pair ih
        · rw [double_cons_of_ne isMark]
          exact .other isMark ih

theorem denotes_iff {text name : Text} :
    Denotes text name ↔ isPlain name = true ∧ text = name ∨ text = quote name := by
  constructor
  · intro denotes
    cases denotes with
    | plain plain => exact Or.inl ⟨plain, rfl⟩
    | quoted run => exact Or.inr (by rw [run_iff.mp run, quote])
  · rintro (⟨plain, rfl⟩ | rfl)
    · exact .plain plain
    · exact .quoted (run_iff.mpr rfl)

theorem Unambiguous.denotes_render {name : Text} (unambiguous : Unambiguous name) :
    Denotes (render name) name := by
  rw [denotes_iff]
  rcases unambiguous.render_cases with ⟨plain, written⟩ | ⟨_, written⟩
  · exact Or.inl ⟨plain, written⟩
  · exact Or.inr written

/-- The text of an identifier has the characters of the name in it. -/
theorem Denotes.subset {text name : Text} (denotes : Denotes text name) : name ⊆ text := by
  rcases denotes_iff.mp denotes with ⟨_, rfl⟩ | rfl
  · exact List.Subset.refl _
  · intro c member
    simp [quote, subset_double name member]

theorem read?_quote (name : Text) {rest : Text} (stops : Text.Stops (· == backtick) rest) :
    read? (quote name ++ rest) = some (name, rest) := by
  rw [quote, List.cons_append, List.cons_append, read?, if_pos rfl, List.append_assoc,
    List.singleton_append, closing?_double name stops]

/-- An identifier is read when what follows does not continue it. -/
theorem Denotes.read? {text name rest : Text} (denotes : Denotes text name)
    (noMark : Text.Stops (· == backtick) rest) (stops : Text.Stops isContinue rest) :
    read? (text ++ rest) = some (name, rest) := by
  rcases denotes_iff.mp denotes with ⟨plain, rfl⟩ | rfl
  · cases text with
    | nil => simp [isPlain] at plain
    | cons c name =>
        have starts : isStart c = true := by
          simp only [isPlain, Bool.and_eq_true] at plain
          exact plain.1
        rw [List.cons_append, Identifier.read?, if_neg (isStart_ne_backtick starts),
          ← List.cons_append]
        exact readPlain?_append plain stops
  · exact read?_quote name noMark

/-- An identifier that was read stands in front of the rest, unless its quote was closed at
a pair. -/
theorem denotes_of_read? {text name rest : Text} (found : read? text = some (name, rest)) :
    (∃ written, Denotes written name ∧ text = written ++ rest) ∨ rest.head? = some backtick := by
  cases text with
  | nil => simp [read?] at found
  | cons c text =>
      simp only [read?] at found
      split at found
      · next isMark =>
          split at found
          · next result closed =>
              simp only [Option.some.injEq] at found
              rw [found] at closed
              refine Or.inl ⟨quote name, denotes_iff.mpr (Or.inr rfl), ?_⟩
              rw [isMark, (eq_double_of_closing? closed).1, quote, List.cons_append,
                List.cons_append, List.append_assoc, List.singleton_append]
          · exact Or.inr (closingAtPair?_rest found)
      · obtain ⟨equal, plain, _⟩ := eq_append_of_readPlain? found
        exact Or.inl ⟨name, .plain plain, equal⟩

/-! ## The characters of a written name -/

/-- Nothing but the name and its backticks goes into the written form. -/
theorem render_subset (name : Text) : render name ⊆ backtick :: name := by
  intro c member
  unfold render quote at member
  split at member
  · exact List.mem_cons_of_mem _ member
  · simp only [List.cons_append, List.mem_cons, List.mem_append, List.not_mem_nil,
      or_false] at member
    rcases member with rfl | member | rfl
    · exact List.mem_cons_self
    · exact List.mem_cons_of_mem _ (double_subset name member)
    · exact List.mem_cons_self

theorem lineFree_render {name : Text} (free : Text.LineFree name) : Text.LineFree (render name) := by
  refine Text.LineFree.mono ?_ (render_subset name)
  rw [Text.lineFree_cons]
  exact ⟨by decide, free⟩

/-- A written name starts with a backtick or with a word character. -/
theorem Unambiguous.stops_render {isMember : Char → Bool} (mark : isMember backtick = false)
    (word : ∀ c, isWord c = true → isMember c = false) {name : Text}
    (unambiguous : Unambiguous name) (rest : Text) :
    Text.Stops isMember (render name ++ rest) := by
  rcases unambiguous.render_cases with ⟨plain, written⟩ | ⟨_, written⟩
  · rw [written]
    cases name with
    | nil => simp [isPlain] at plain
    | cons c name =>
        rw [List.cons_append, Text.stops_cons]
        exact word c (isWord_of_isContinue (isContinue_of_isPlain plain c (by simp)))
  · rw [written, quote, List.cons_append, List.cons_append, Text.stops_cons]
    exact mark

theorem stops_render {isMember : Char → Bool} (mark : isMember backtick = false)
    (word : ∀ c, isWord c = true → isMember c = false) {name : Text} (free : '\n' ∉ name)
    (rest : Text) : Text.Stops isMember (render name ++ rest) :=
  (unambiguous_of_free free).stops_render mark word rest

theorem trimmed_of_isPlain {name : Text} (plain : isPlain name = true) : Text.Trimmed name := by
  apply Text.trimmed_of_no_blank
  intro c member
  exact isBlank_of_isWord (isWord_of_isContinue (isContinue_of_isPlain plain c member))

theorem Unambiguous.trimmed_render {name : Text} (unambiguous : Unambiguous name) :
    Text.Trimmed (render name) := by
  rcases unambiguous.render_cases with ⟨plain, written⟩ | ⟨_, written⟩
  · rw [written]
    exact trimmed_of_isPlain plain
  · rw [written, quote]
    refine ⟨Text.stops_cons.mpr (by decide), ?_⟩
    intro c found
    rw [List.getLast?_append_of_ne_nil _ (by simp)] at found
    cases found
    decide

theorem render_ne_nil (name : Text) : render name ≠ [] := by
  unfold render
  split
  · next bare =>
      rintro rfl
      cases bare
  · simp [quote]

/-- Backticks that were written twice pair up again. -/
theorem collapse_double (name : Text) : collapse (double name) = name := by
  induction name with
  | nil => rfl
  | cons c name ih =>
      by_cases isMark : c = backtick
      · rw [isMark, double_backtick, collapse, if_pos ⟨rfl, rfl⟩, ih]
      · rw [double_cons_of_ne isMark]
        cases shape : double name with
        | nil =>
            rw [shape] at ih
            rw [← ih]
            rfl
        | cons next rest => rw [collapse, if_neg (fun both => isMark both.1), ← shape, ih]

theorem collapse_subset (text : Text) : collapse text ⊆ text := by
  fun_induction collapse text with
  | case1 => exact List.Subset.refl _
  | case2 => exact List.Subset.refl _
  | case3 c next text both ih =>
      intro d member
      rcases List.mem_cons.mp member with rfl | member
      · simp [both.1]
      · simp [ih member]
  | case4 c next text _ ih => exact List.cons_subset_cons c ih

theorem double_append (first second : Text) :
    double (first ++ second) = double first ++ double second :=
  List.flatMap_append

theorem lineFree_of_isPlain {name : Text} (plain : isPlain name = true) : Text.LineFree name := by
  have continues := isContinue_of_isPlain plain
  constructor
  · intro member
    exact absurd (continues _ member) (by decide)
  · intro member
    exact absurd (continues _ member) (by decide)

/-- A doubled name does not close its quote. -/
theorem closing?_double_eq_none (name : Text) : closing? (double name) = none := by
  induction name with
  | nil => rfl
  | cons c name ih =>
      by_cases isMark : c = backtick
      · rw [isMark, double_backtick, closing?_pair, ih]
        rfl
      · rw [double_cons_of_ne isMark]
        by_cases last : double name = []
        · simp [last, closing?, Text.delimited?, isMark]
        · rw [closing?_cons_of_ne isMark last, ih]
          rfl

/-- What a line can hold of a written name that goes on in the next one: a plain name, or a
quote that stays open. -/
def Unfinished (lead : Text) : Prop :=
  isPlain lead = true ∨ ∃ part, lead = backtick :: double part

/-- A written name with a line break in it is unfinished at the end of its first line. -/
theorem exists_lead_of_broken {name : Text} (broken : ¬Text.LineFree name) :
    ∃ lead mark after, render name = lead ++ mark :: after ∧ Text.LineFree lead ∧
      (mark = '\r' ∨ mark = '\n') ∧ Unfinished lead := by
  cases bare : isBare name with
  | true =>
      have special : isPlain name = false := by
        rw [← Bool.not_eq_true]
        exact fun plain => broken (lineFree_of_isPlain plain)
      simp only [isBare, special, Bool.false_or, Bool.and_eq_true, beq_iff_eq] at bare
      obtain ⟨last, plain⟩ := bare
      have whole : name = name.dropLast ++ ['\n'] :=
        (List.dropLast_append_getLast? '\n' last).symm
      refine ⟨name.dropLast, '\n', [], ?_, lineFree_of_isPlain plain, Or.inr rfl, Or.inl plain⟩
      rw [render, if_pos (by simp [isBare, last, plain])]
      exact whole
  | false =>
      obtain ⟨before, mark, after, rfl, free, breaks⟩ := Text.exists_break broken
      have notMark : mark ≠ backtick := by
        rcases breaks with rfl | rfl <;> decide
      have leadFree : Text.LineFree (backtick :: double before) :=
        Text.lineFree_cons.mpr ⟨by decide, free.mono (double_subset before)⟩
      refine ⟨backtick :: double before, mark, double after ++ [backtick], ?_, leadFree, breaks,
        Or.inr ⟨before, rfl⟩⟩
      rw [render, bare, quote, double_append, double_cons_of_ne notMark]
      simp

end SchemaNotation.Identifier
