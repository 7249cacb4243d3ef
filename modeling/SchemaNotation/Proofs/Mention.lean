import SchemaNotation.Proofs.Character
import SchemaNotation.Proofs.Identifier
import SchemaNotation.Proofs.Scan

/-!
# Words in free text

A keyword occurs where a whole word agrees with it up to letter case.  A scan that is
keyed to a keyword passes over text without it, so it finds what a segment states
whatever stands in the other segments.
-/

namespace SchemaNotation.Text

/-! ## Whole words -/

/-- A text without regard to letter case. -/
def fold (text : Text) : Text :=
  text.map foldLetter

/-- A keyword is a word. -/
def IsKeyword (keyword : Text) : Prop :=
  keyword ≠ [] ∧ ∀ c ∈ fold keyword, isWord c = true

instance (keyword : Text) : Decidable (IsKeyword keyword) :=
  decidable_of_iff (keyword ≠ [] ∧ (fold keyword).all isWord = true)
    (and_congr_right fun _ => List.all_eq_true)

/-- The word at the start of a text is the keyword. -/
def Heads (keyword text : Text) : Prop :=
  fold (text.takeWhile isWord) = fold keyword

theorem isWord_of_fold_eq {keyword word : Text} (isKeyword : IsKeyword keyword)
    (same : fold word = fold keyword) : ∀ c ∈ word, isWord c = true := by
  intro c member
  apply isWord_of_isWord_foldLetter
  apply isKeyword.2
  rw [← same]
  exact List.mem_map_of_mem member

theorem afterKeyword?_eq_some_iff {keyword text rest : Text} :
    afterKeyword? keyword text = some rest ↔
      ∃ word, text = word ++ rest ∧ fold word = fold keyword := by
  induction keyword generalizing text with
  | nil =>
      constructor
      · intro found
        cases found
        exact ⟨[], rfl, rfl⟩
      · rintro ⟨word, rfl, same⟩
        rw [List.map_eq_nil_iff.mp same]
        rfl
  | cons letter keyword ih =>
      constructor
      · intro found
        cases text with
        | nil => cases found
        | cons c text =>
            rw [afterKeyword?] at found
            split at found
            · next alike =>
                obtain ⟨word, rfl, same⟩ := ih.mp found
                refine ⟨c :: word, rfl, ?_⟩
                rw [sameLetter, beq_iff_eq] at alike
                rw [fold, fold, List.map_cons, List.map_cons, alike]
                exact congrArg _ same
            · cases found
      · rintro ⟨word, rfl, same⟩
        cases word with
        | nil => cases same
        | cons c word =>
            obtain ⟨alike, same⟩ := List.cons.inj same
            rw [List.cons_append, afterKeyword?, if_pos (by simp [sameLetter, alike])]
            exact ih.mpr ⟨word, rfl, same⟩

theorem atWordEnd_iff {text : Text} : atWordEnd text = true ↔ Stops isWord text := by
  cases text with
  | nil => simp [atWordEnd, stops_nil]
  | cons c text => simp [atWordEnd, stops_cons]

/-- A keyword that a word ends after is the word at the start. -/
theorem heads_of_afterKeyword? {keyword text rest : Text} (isKeyword : IsKeyword keyword)
    (found : afterKeyword? keyword text = some rest) (stops : Stops isWord rest) :
    Heads keyword text := by
  obtain ⟨word, rfl, same⟩ := afterKeyword?_eq_some_iff.mp found
  rw [Heads, takeWhile_append_of_stops (isWord_of_fold_eq isKeyword same) stops]
  exact same

theorem afterKeyword?_of_heads {keyword text : Text} (heads : Heads keyword text) :
    afterKeyword? keyword text = some (text.dropWhile isWord) :=
  afterKeyword?_eq_some_iff.mpr ⟨text.takeWhile isWord, List.takeWhile_append_dropWhile.symm, heads⟩

theorem takeWhile_append_separator {c : Char} (separates : isWord c = false) (text rest : Text) :
    (text ++ c :: rest).takeWhile isWord = text.takeWhile isWord := by
  induction text with
  | nil => rw [List.nil_append, List.takeWhile_cons, separates]; rfl
  | cons d text ih => rw [List.cons_append, List.takeWhile_cons, List.takeWhile_cons, ih]

/-- What a separator follows does not change the word at the start. -/
theorem heads_append_iff {keyword text : Text} {c : Char} (separates : isWord c = false)
    (rest : Text) : Heads keyword (text ++ c :: rest) ↔ Heads keyword text := by
  rw [Heads, takeWhile_append_separator separates, Heads]

theorem not_heads_separator {keyword : Text} (isKeyword : IsKeyword keyword) {c : Char}
    (separates : isWord c = false) (rest : Text) : ¬Heads keyword (c :: rest) := by
  intro heads
  rw [Heads, List.takeWhile_cons, separates] at heads
  exact isKeyword.1 (List.map_eq_nil_iff.mp heads.symm)

theorem not_heads_nil {keyword : Text} (isKeyword : IsKeyword keyword) : ¬Heads keyword [] :=
  fun heads => isKeyword.1 (List.map_eq_nil_iff.mp heads.symm)

/-! ## Scans keyed to a keyword -/

variable {α : Type} {read : Option Char → Text → Option α} {keyword : Text}

/-- A reader that succeeds only where one of the keywords is a whole word. -/
def Keyed (keywords : List Text) (read : Option Char → Text → Option α) : Prop :=
  (∀ keyword ∈ keywords, IsKeyword keyword) ∧
    ∀ previous text found, read previous text = some found →
      atWordStart previous = true ∧ ∃ keyword ∈ keywords, Heads keyword text

/-- The keyword is no word of the text. -/
def Lacks (keyword text : Text) : Prop :=
  mentions [keyword] text = false

instance (keyword text : Text) : Decidable (Lacks keyword text) :=
  inferInstanceAs (Decidable (_ = _))

theorem guard_bind_eq_some_iff {condition : Prop} [Decidable condition] {next : Unit → Option α}
    {found : α} : (guard condition >>= next) = some found ↔ condition ∧ next () = some found := by
  by_cases holds : condition
  · simp [guard, holds]
  · simp [guard, holds, failure]

theorem afterWholePhrase?_eq_some_iff {phrase : List Text} {previous : Option Char}
    {text rest : Text} :
    afterWholePhrase? phrase previous text = some rest ↔
      atWordStart previous = true ∧ afterPhrase? phrase text = some rest ∧
        atWordEnd rest = true := by
  rw [afterWholePhrase?, guard_bind_eq_some_iff]
  constructor
  · rintro ⟨starts, found⟩
    obtain ⟨tail, phraseFound, found⟩ := Option.bind_eq_some_iff.mp found
    obtain ⟨ends, found⟩ := guard_bind_eq_some_iff.mp found
    cases found
    exact ⟨starts, phraseFound, ends⟩
  · rintro ⟨starts, phraseFound, ends⟩
    refine ⟨starts, Option.bind_eq_some_iff.mpr ⟨rest, phraseFound, ?_⟩⟩
    exact guard_bind_eq_some_iff.mpr ⟨ends, rfl⟩

/-- A phrase of several words starts with its first keyword as a whole word. -/
theorem heads_of_afterPhrase? {next : Text} {phrase : List Text} (isKeyword : IsKeyword keyword)
    {text rest : Text} (found : afterPhrase? (keyword :: next :: phrase) text = some rest) :
    Heads keyword text := by
  obtain ⟨behind, first, found⟩ := Option.bind_eq_some_iff.mp found
  obtain ⟨_, blanks, _⟩ := Option.bind_eq_some_iff.mp found
  refine heads_of_afterKeyword? isKeyword first ?_
  cases behind with
  | nil => exact stops_nil isWord
  | cons c behind =>
      rw [blanks?] at blanks
      split at blanks
      · next blank => exact stops_cons.mpr (isWord_of_isBlank blank)
      · cases blanks

theorem keyed_afterWholePhrase? (isKeyword : IsKeyword keyword) (phrase : List Text) :
    Keyed [keyword] (afterWholePhrase? (keyword :: phrase)) := by
  refine ⟨by simpa using isKeyword, ?_⟩
  intro previous text found success
  obtain ⟨starts, phraseFound, ends⟩ := afterWholePhrase?_eq_some_iff.mp success
  refine ⟨starts, keyword, by simp, ?_⟩
  cases phrase with
  | nil => exact heads_of_afterKeyword? isKeyword phraseFound (atWordEnd_iff.mp ends)
  | cons next phrase => exact heads_of_afterPhrase? isKeyword phraseFound

/-- The search for the keyword alone succeeds wherever the keyword is. -/
theorem afterWholePhrase?_of_heads {previous : Option Char} {text : Text}
    (starts : atWordStart previous = true) (heads : Heads keyword text) :
    afterWholePhrase? [keyword] previous text = some (text.dropWhile isWord) :=
  afterWholePhrase?_eq_some_iff.mpr
    ⟨starts, afterKeyword?_of_heads heads, atWordEnd_iff.mpr (stops_dropWhile isWord text)⟩

theorem Keyed.none_of_separator {keywords : List Text} (keyed : Keyed keywords read) {c : Char}
    (separates : isWord c = false) (previous : Option Char) (rest : Text) :
    read previous (c :: rest) = none := by
  cases success : read previous (c :: rest) with
  | none => rfl
  | some found =>
      obtain ⟨_, keyword, member, heads⟩ := keyed.2 _ _ _ success
      exact (not_heads_separator (keyed.1 keyword member) separates rest heads).elim

theorem Keyed.none_of_nil {keywords : List Text} (keyed : Keyed keywords read)
    (previous : Option Char) : read previous [] = none := by
  cases success : read previous [] with
  | none => rfl
  | some found =>
      obtain ⟨_, keyword, member, heads⟩ := keyed.2 _ _ _ success
      exact (not_heads_nil (keyed.1 keyword member) heads).elim

/-- A keyed reader finds nothing where another word stands. -/
theorem Keyed.none_of_other (keyed : Keyed [keyword] read) {word : Text}
    (inside : ∀ c ∈ word, isWord c = true) (other : fold word ≠ fold keyword) {rest : Text}
    (stops : Stops isWord rest) (previous : Option Char) : read previous (word ++ rest) = none := by
  cases success : read previous (word ++ rest) with
  | none => rfl
  | some found =>
      obtain ⟨_, key, member, heads⟩ := keyed.2 _ _ _ success
      rw [List.mem_singleton.mp member, Heads, takeWhile_append_of_stops inside stops] at heads
      exact (other heads).elim

/-- The keyword is no word of the text behind the given character. -/
def LacksFrom (keyword : Text) (previous : Option Char) (text : Text) : Prop :=
  firstMatch (afterWholePhrase? [keyword]) previous text = none

theorem lacks_iff {text : Text} : Lacks keyword text ↔ LacksFrom keyword none text := by
  rw [Lacks, mentions, LacksFrom, Option.isSome_eq_false_iff, Option.isNone_iff_eq_none]

theorem lacksFrom_nil (isKeyword : IsKeyword keyword) (previous : Option Char) :
    LacksFrom keyword previous [] :=
  (keyed_afterWholePhrase? isKeyword []).none_of_nil previous

theorem lacksFrom_cons (isKeyword : IsKeyword keyword) {previous : Option Char} {c : Char}
    {text : Text} :
    LacksFrom keyword previous (c :: text) ↔
      ¬(atWordStart previous = true ∧ Heads keyword (c :: text)) ∧
        LacksFrom keyword (some c) text := by
  rw [LacksFrom, firstMatch, LacksFrom]
  cases here : afterWholePhrase? [keyword] previous (c :: text) with
  | some rest =>
      have heads := (keyed_afterWholePhrase? isKeyword []).2 previous (c :: text) rest here
      simp only [List.mem_singleton, exists_eq_left] at heads
      simp [heads]
  | none =>
      have notHere : ¬(atWordStart previous = true ∧ Heads keyword (c :: text)) := by
        rintro ⟨starts, heads⟩
        rw [afterWholePhrase?_of_heads starts heads] at here
        cases here
      simp [notHere]

/-- Only whether a word may start behind the character matters. -/
theorem lacksFrom_of_lacks (isKeyword : IsKeyword keyword) {text : Text}
    (lacks : LacksFrom keyword none text) (previous : Option Char) :
    LacksFrom keyword previous text := by
  cases text with
  | nil => exact lacksFrom_nil isKeyword previous
  | cons c text =>
      rw [lacksFrom_cons isKeyword] at lacks ⊢
      exact ⟨fun here => lacks.1 ⟨rfl, here.2⟩, lacks.2⟩

theorem lacksFrom_separator (isKeyword : IsKeyword keyword) {previous : Option Char} {c : Char}
    (separates : isWord c = false) {text : Text} :
    LacksFrom keyword previous (c :: text) ↔ LacksFrom keyword none text := by
  rw [lacksFrom_cons isKeyword]
  constructor
  · rintro ⟨_, rest⟩
    cases text with
    | nil => exact lacksFrom_nil isKeyword none
    | cons d text =>
        rw [lacksFrom_cons isKeyword] at rest ⊢
        exact ⟨fun here => rest.1 ⟨by simp [atWordStart, separates], here.2⟩, rest.2⟩
  · intro rest
    exact ⟨fun here => not_heads_separator isKeyword separates text here.2,
      lacksFrom_of_lacks isKeyword rest (some c)⟩

theorem lacksFrom_append (isKeyword : IsKeyword keyword) {previous : Option Char} {c : Char}
    (separates : isWord c = false) {first second : Text} :
    LacksFrom keyword previous (first ++ c :: second) ↔
      LacksFrom keyword previous first ∧ LacksFrom keyword none second := by
  induction first generalizing previous with
  | nil => simp [lacksFrom_separator isKeyword separates, lacksFrom_nil isKeyword]
  | cons d first ih =>
      rw [List.cons_append, lacksFrom_cons isKeyword, lacksFrom_cons isKeyword, ih,
        ← List.cons_append, heads_append_iff separates, and_assoc]

/-- The words on the two sides of a separator are the words of the text. -/
theorem lacks_append (isKeyword : IsKeyword keyword) {c : Char} (separates : isWord c = false)
    {first second : Text} :
    Lacks keyword (first ++ c :: second) ↔ Lacks keyword first ∧ Lacks keyword second := by
  rw [lacks_iff, lacksFrom_append isKeyword separates, lacks_iff, lacks_iff]

theorem lacks_separator (isKeyword : IsKeyword keyword) {c : Char} (separates : isWord c = false)
    {text : Text} : Lacks keyword (c :: text) ↔ Lacks keyword text := by
  rw [lacks_iff, lacksFrom_separator isKeyword separates, lacks_iff]

/-- Doubling the backticks of a name changes no word of it. -/
theorem lacksFrom_double (isKeyword : IsKeyword keyword) (previous : Option Char) (name : Text) :
    LacksFrom keyword previous (Identifier.double name) ↔ LacksFrom keyword previous name := by
  have separates : isWord backtick = false := by decide
  induction name generalizing previous with
  | nil => exact Iff.rfl
  | cons c name ih =>
      by_cases isMark : c = backtick
      · rw [isMark, Identifier.double_backtick, lacksFrom_separator isKeyword separates,
          lacksFrom_separator isKeyword separates, lacksFrom_separator isKeyword separates]
        exact ih none
      · have heads : Heads keyword (c :: Identifier.double name) ↔ Heads keyword (c :: name) := by
          rw [Heads, Heads, List.takeWhile_cons, List.takeWhile_cons, Identifier.takeWhile_double]
        rw [Identifier.double_cons_of_ne isMark, lacksFrom_cons isKeyword,
          lacksFrom_cons isKeyword, heads]
        exact and_congr_right fun _ => ih (some c)

theorem lacks_render {name : Text} (free : '\n' ∉ name) (isKeyword : IsKeyword keyword)
    (lacks : Lacks keyword name) : Lacks keyword (Identifier.render name) := by
  have separates : isWord backtick = false := by decide
  rcases Identifier.render_cases free with ⟨_, written⟩ | ⟨_, written⟩
  · rw [written]
    exact lacks
  · have doubled := lacks_iff.mpr ((lacksFrom_double isKeyword none name).mpr (lacks_iff.mp lacks))
    rw [written, Identifier.quote, List.cons_append, lacks_separator isKeyword separates,
      lacks_append isKeyword separates]
    exact ⟨doubled, lacks_iff.mpr (lacksFrom_nil isKeyword none)⟩

/-- A keyed scan passes over a text without its keywords, up to a separator. -/
theorem Keyed.firstMatch_skip {keywords : List Text} (keyed : Keyed keywords read) {first : Text}
    {c : Char} (separates : isWord c = false) {previous : Option Char}
    (lacks : ∀ keyword ∈ keywords, LacksFrom keyword previous first) (second : Text) :
    firstMatch read previous (first ++ c :: second) = firstMatch read (some c) second := by
  induction first generalizing previous with
  | nil => rw [List.nil_append, firstMatch, keyed.none_of_separator separates]
  | cons d first ih =>
      have apart := fun keyword member =>
        (lacksFrom_cons (keyed.1 keyword member)).mp (lacks keyword member)
      have here : read previous (d :: first ++ c :: second) = none := by
        cases success : read previous (d :: first ++ c :: second) with
        | none => rfl
        | some found =>
            obtain ⟨starts, keyword, member, heads⟩ := keyed.2 _ _ _ success
            exact ((apart keyword member).1
              ⟨starts, (heads_append_iff separates second).mp heads⟩).elim
      rw [List.cons_append] at here ⊢
      rw [firstMatch, here]
      exact ih fun keyword member => (apart keyword member).2

/-- A keyed scan finds nothing in a text without its keywords. -/
theorem Keyed.firstMatch_eq_none {keywords : List Text} (keyed : Keyed keywords read) {text : Text}
    {previous : Option Char} (lacks : ∀ keyword ∈ keywords, LacksFrom keyword previous text) :
    firstMatch read previous text = none := by
  induction text generalizing previous with
  | nil => exact keyed.none_of_nil previous
  | cons d text ih =>
      have apart := fun keyword member =>
        (lacksFrom_cons (keyed.1 keyword member)).mp (lacks keyword member)
      have here : read previous (d :: text) = none := by
        cases success : read previous (d :: text) with
        | none => rfl
        | some found =>
            obtain ⟨starts, keyword, member, heads⟩ := keyed.2 _ _ _ success
            exact ((apart keyword member).1 ⟨starts, heads⟩).elim
      rw [firstMatch, here]
      exact ih fun keyword member => (apart keyword member).2

/-- What a scan finds behind the first character of a text. -/
def resume (read : Option Char → Text → Option α) : Text → Option α
  | [] => none
  | c :: text => firstMatch read (some c) text

/-- A keyed scan goes on behind a separator. -/
theorem Keyed.firstMatch_of_stops {keywords : List Text} (keyed : Keyed keywords read)
    {rest : Text} (stops : Stops isWord rest) (previous : Option Char) :
    firstMatch read previous rest = resume read rest := by
  cases rest with
  | nil => exact keyed.none_of_nil previous
  | cons c rest =>
      rw [firstMatch, keyed.none_of_separator (stops_cons.mp stops)]
      rfl

/-- A keyed scan leaves a word at whose start it finds nothing. -/
theorem Keyed.firstMatch_word {keywords : List Text} (keyed : Keyed keywords read) {word : Text}
    (inside : ∀ c ∈ word, isWord c = true) {rest : Text} (stops : Stops isWord rest)
    {previous : Option Char} (here : read previous (word ++ rest) = none) :
    firstMatch read previous (word ++ rest) = resume read rest := by
  induction word generalizing previous with
  | nil => exact keyed.firstMatch_of_stops stops previous
  | cons c word ih =>
      rw [List.cons_append] at here ⊢
      rw [firstMatch, here]
      apply ih fun d member => inside d (List.mem_cons_of_mem c member)
      -- Inside a word no other word starts.
      cases success : read (some c) (word ++ rest) with
      | none => rfl
      | some found =>
          have starts := (keyed.2 _ _ _ success).1
          rw [atWordStart, inside c (by simp)] at starts
          cases starts

/-- A keyed scan passes over blanks. -/
theorem Keyed.firstMatch_blanks {keywords : List Text} (keyed : Keyed keywords read)
    {blanks : Text} (blank : Blank blanks) {rest : Text} {result : Option α}
    (behind : ∀ previous, firstMatch read previous rest = result) (previous : Option Char) :
    firstMatch read previous (blanks ++ rest) = result := by
  induction blanks generalizing previous with
  | nil => exact behind previous
  | cons c blanks ih =>
      rw [List.cons_append, firstMatch,
        keyed.none_of_separator (isWord_of_isBlank (blank c (by simp)))]
      exact ih (fun d member => blank d (List.mem_cons_of_mem c member)) (some c)

/-! ## Segments -/

/-- What can stand behind a segment: nothing, or a comma. -/
def Ends (rest : Text) : Prop :=
  rest = [] ∨ ∃ more, rest = ',' :: more

theorem Ends.stops {rest : Text} (ends : Ends rest) {isMember : Char → Bool}
    (comma : isMember ',' = false) : Stops isMember rest := by
  rcases ends with rfl | ⟨more, rfl⟩
  · exact stops_nil isMember
  · exact stops_cons.mpr comma

/-- A scan finds nothing in the segment and goes on behind it. -/
def Passes (read : Option Char → Text → Option α) (segment : Text) : Prop :=
  ∀ previous rest, Ends rest → firstMatch read previous (segment ++ rest) = resume read rest

theorem Keyed.passes {keywords : List Text} (keyed : Keyed keywords read) {segment : Text}
    (lacks : ∀ keyword ∈ keywords, Lacks keyword segment) : Passes read segment := by
  intro previous rest ends
  have apart : ∀ keyword ∈ keywords, LacksFrom keyword previous segment := fun keyword member =>
    lacksFrom_of_lacks (keyed.1 keyword member) (lacks_iff.mp (lacks keyword member)) previous
  rcases ends with rfl | ⟨more, rfl⟩
  · rw [List.append_nil]
    exact keyed.firstMatch_eq_none apart
  · exact keyed.firstMatch_skip (by decide) apart more

/-- What stands behind a segment: nothing, or a comma and a segment that starts with one
of the given characters. -/
def Follows (starts rest : Text) : Prop :=
  rest = [] ∨ ∃ c more, rest = ',' :: ' ' :: c :: more ∧ c ∈ starts

theorem Follows.ends {starts rest : Text} (follows : Follows starts rest) : Ends rest := by
  rcases follows with rfl | ⟨c, more, rfl, _⟩
  · exact Or.inl rfl
  · exact Or.inr ⟨' ' :: c :: more, rfl⟩

theorem firstMatch_of_here {previous : Option Char} {text : Text} {found : α}
    (here : read previous text = some found) : firstMatch read previous text = some found := by
  cases text with
  | nil => exact here
  | cons c text => rw [firstMatch, here]

/-- A scan finds what its reader reads somewhere in the text. -/
theorem exists_of_firstMatch {previous : Option Char} {text : Text} {found : α}
    (success : firstMatch read previous text = some found) :
    ∃ before back, back <:+ text ∧ read before back = some found := by
  induction text generalizing previous with
  | nil => exact ⟨previous, [], List.suffix_refl _, success⟩
  | cons c text ih =>
      rw [firstMatch] at success
      split at success
      · next value here =>
          cases success
          exact ⟨previous, c :: text, List.suffix_refl _, here⟩
      · obtain ⟨before, back, suffix, here⟩ := ih success
        exact ⟨before, back, suffix.trans (List.suffix_cons c text), here⟩

/-- Joined segments: the first one, and what stands behind it. -/
theorem intercalate_follows {first : Text} {others : List Text} {starts : Text}
    (opens : ∀ segment ∈ others, ∃ c rest, segment = c :: rest ∧ c ∈ starts) :
    ∃ rest, List.intercalate ", ".toList (first :: others) = first ++ rest ∧ Follows starts rest ∧
      (others ≠ [] → rest = ',' :: ' ' :: List.intercalate ", ".toList others) := by
  cases others with
  | nil => exact ⟨[], by simp, Or.inl rfl, by simp⟩
  | cons next others =>
      obtain ⟨c, more, shape, member⟩ := opens next (by simp)
      obtain ⟨tail, starting⟩ : ∃ tail, List.intercalate ", ".toList (next :: others) = c :: tail := by
        rw [shape]
        cases others <;> exact ⟨_, rfl⟩
      refine ⟨',' :: ' ' :: List.intercalate ", ".toList (next :: others), ?_, ?_, fun _ => rfl⟩
      · rw [List.intercalate_cons_cons, List.append_assoc]
        rfl
      · exact Or.inr ⟨c, tail, by rw [starting], member⟩

/-- A keyed scan over segments finds what the first one states that states something. -/
theorem Keyed.firstMatch_intercalate {keywords : List Text} (keyed : Keyed keywords read)
    {β : Type} {items : List β} (write : β → Text) (result : β → Option α) {starts : Text}
    (opens : ∀ item ∈ items, ∃ c rest, write item = c :: rest ∧ c ∈ starts)
    (passes : ∀ item ∈ items, result item = none → Passes read (write item))
    (finds : ∀ item ∈ items, ∀ found, result item = some found → ∀ previous rest,
      atWordStart previous = true → Follows starts rest →
      read previous (write item ++ rest) = some found)
    {previous : Option Char} (start : atWordStart previous = true) :
    firstMatch read previous (List.intercalate ", ".toList (items.map write)) =
      items.findSome? result := by
  induction items generalizing previous with
  | nil => exact keyed.none_of_nil previous
  | cons item items ih =>
      obtain ⟨rest, shape, follows, further⟩ : ∃ rest,
          List.intercalate ", ".toList (write item :: items.map write) = write item ++ rest ∧
          Follows starts rest ∧ (items.map write ≠ [] →
            rest = ',' :: ' ' :: List.intercalate ", ".toList (items.map write)) := by
        apply intercalate_follows
        intro segment member
        obtain ⟨other, otherMem, rfl⟩ := List.mem_map.mp member
        exact opens other (List.mem_cons_of_mem item otherMem)
      rw [List.map_cons, shape, List.findSome?_cons]
      cases stated : result item with
      | some found =>
          exact firstMatch_of_here (finds item (by simp) found stated previous rest start follows)
      | none =>
          rw [passes item (by simp) stated previous rest follows.ends]
          cases items with
          | nil =>
              rw [List.map_nil, List.intercalate_singleton] at shape
              rw [List.self_eq_append_right.mp shape]
              rfl
          | cons next items =>
              rw [further (by simp), resume, firstMatch, keyed.none_of_separator (by decide)]
              exact ih (fun other member => opens other (List.mem_cons_of_mem item member))
                (fun other member => passes other (List.mem_cons_of_mem item member))
                (fun other member => finds other (List.mem_cons_of_mem item member)) (by decide)

end SchemaNotation.Text
