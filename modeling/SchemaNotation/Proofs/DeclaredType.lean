import SchemaNotation.DeclaredType
import SchemaNotation.Proofs.Integer
import SchemaNotation.Proofs.Letter
import SchemaNotation.Proofs.Words

/-!
# Declared types split without loss

A declared type is put together from words, at most one list of parameters somewhere among
them, and an array mark behind everything.  However it is spaced, reading it gives back its
words, its parameters and its mark.
-/

namespace SchemaNotation

namespace DeclaredType

/-! ## Parameters -/

/-- A parameter and its value: the word for the greatest possible length in any case, or a
number with an optional sign. -/
inductive Denotes : Text → Int → Prop where
  | max {word : Text} : word.map Char.toLower = "max".toList → Denotes word (-1)
  | plain {digits : Text} : Integer.Numeral digits → Denotes digits (Text.digitsValue digits)
  | plus {digits : Text} : Integer.Numeral digits →
      Denotes ('+' :: digits) (Text.digitsValue digits)
  | minus {digits : Text} : Integer.Numeral digits →
      Denotes ('-' :: digits) (-(Text.digitsValue digits : Int))

/-- The decimal form of an integer is a parameter. -/
theorem denotes_render {value : Int} (inLimit : Integer.InLimit value.natAbs) :
    Denotes (Integer.render value) value := by
  cases value with
  | ofNat value =>
      have denotes := Denotes.plain (Integer.numeral_toDigits inLimit)
      rwa [Integer.digitsValue_toDigits] at denotes
  | negSucc value =>
      have denotes := Denotes.minus (Integer.numeral_toDigits inLimit)
      rwa [Integer.digitsValue_toDigits] at denotes

section Parameter

variable {text : Text} {value : Int}

/-- The word for the greatest length is known by its lower case form. -/
theorem lower_of_map_toLower (same : text.map Char.toLower = "max".toList) :
    Text.lower text = "max".toList := by
  have own : ∀ c ∈ text, lowerLetter c = [c.toLower] := by
    intro c member
    have letter : c.toLower ∈ "max".toList := same ▸ List.mem_map_of_mem member
    have noKelvin : c ≠ kelvinSign := by
      rintro rfl
      exact absurd letter (by decide)
    have noDotted : c ≠ dottedCapitalI := by
      rintro rfl
      exact absurd letter (by decide)
    rw [lowerLetter, if_neg noKelvin, if_neg noDotted]
  rw [← same, Text.lower, List.flatMap_congr own, List.map_eq_flatMap]

/-- A text with a digit in it is not that word. -/
theorem lower_ne_of_digit {c : Char} (member : c ∈ text) (digit : isDigit c = true) :
    Text.lower text ≠ "max".toList := by
  intro same
  have letter : c ∈ Text.lower text :=
    List.mem_flatMap.mpr ⟨c, member, by simp [lowerLetter_of_isDigit digit]⟩
  have noDigits : "max".toList.any isDigit = false := by decide
  rw [same] at letter
  exact List.any_eq_false.mp noDigits c letter digit

theorem parameter?_eq_read? {c : Char} (member : c ∈ text) (digit : isDigit c = true) :
    parameter? text = Integer.read? text := by
  rw [parameter?, if_neg (lower_ne_of_digit member digit)]

/-- A parameter is read as its value. -/
theorem Denotes.parameter? (denotes : Denotes text value) : parameter? text = some value := by
  have first : ∀ {digits : Text}, Integer.Numeral digits →
      ∃ c ∈ digits, isDigit c = true := by
    intro digits numeral
    obtain ⟨c, rest, shape⟩ := List.exists_cons_of_ne_nil numeral.filled
    exact ⟨c, by simp [shape], numeral.digits c (by simp [shape])⟩
  cases denotes with
  | max same => rw [DeclaredType.parameter?, if_pos (lower_of_map_toLower same)]
  | plain numeral =>
      obtain ⟨c, member, digit⟩ := first numeral
      rw [parameter?_eq_read? member digit, numeral.read?]
  | plus numeral | minus numeral =>
      obtain ⟨c, member, digit⟩ := first numeral
      rw [parameter?_eq_read? (List.mem_cons_of_mem _ member) digit, Integer.read?,
        numeral.readUnsigned?]
      rfl

/-- Whatever is read as a parameter can be written. -/
theorem inLimit_of_parameter? (found : parameter? text = some value) :
    Integer.InLimit value.natAbs := by
  rw [parameter?] at found
  split at found
  · cases found
    decide
  · exact Integer.inLimit_of_read? found

/-- A parameter has neither a comma nor a closing parenthesis in it. -/
theorem Denotes.clear (denotes : Denotes text value) {c : Char} (mark : c ∈ ",)".toList) :
    c ∉ text := by
  have inDigits : ∀ {digits : Text}, Integer.Numeral digits → c ∉ digits := by
    intro digits numeral member
    have noDigits : ",)".toList.any isDigit = false := by decide
    exact List.any_eq_false.mp noDigits c mark (numeral.digits c member)
  intro member
  cases denotes with
  | max same =>
      have noLetters : ",)".toList.any (fun d => "max".toList.contains d.toLower) = false := by
        decide
      have letter : c.toLower ∈ "max".toList := same ▸ List.mem_map_of_mem member
      exact List.any_eq_false.mp noLetters c mark (List.contains_iff_mem.mpr letter)
  | plain numeral => exact inDigits numeral member
  | plus numeral | minus numeral =>
      rcases List.mem_cons.mp member with rfl | inside
      · exact absurd mark (by decide)
      · exact inDigits numeral inside

/-- Nor has a text that is trimmed to a parameter. -/
theorem Denotes.clear_of_trim (denotes : Denotes (Text.trim text) value) {c : Char}
    (mark : c ∈ ",)".toList) : c ∉ text := by
  have noBlanks : ",)".toList.any isBlank = false := by decide
  have solid : isBlank c = false :=
    Bool.eq_false_iff.mpr (List.any_eq_false.mp noBlanks c mark)
  obtain ⟨before, after, beforeBlank, afterBlank, equal⟩ := Text.trim_split text
  rw [equal, List.mem_append, List.mem_append]
  rintro (inBefore | inside | inAfter)
  · exact Text.not_mem_of_blank solid beforeBlank inBefore
  · exact denotes.clear mark inside
  · exact Text.not_mem_of_blank solid afterBlank inAfter

end Parameter

/-! ## Lists of parameters -/

/-- What stands between the parentheses: a length, or a length and a scale.  Blanks may
stand around each. -/
inductive Lists : Text → Option Int → Option Int → Prop where
  | length {text : Text} {length : Int} :
      Denotes (Text.trim text) length → Lists text (some length) none
  | both {first second : Text} {length scale : Int} :
      Denotes (Text.trim first) length → Denotes (Text.trim second) scale →
      Lists (first ++ ',' :: second) (some length) (some scale)

section List

variable {list : Text} {length scale : Option Int}

/-- The pieces of a list are its parameters. -/
theorem Lists.parameters (lists : Lists list length scale) :
    let parameters := (Text.splitOn ',' list).map Text.trim
    parameters[0]?.bind parameter? = length ∧ parameters[1]?.bind parameter? = scale := by
  cases lists with
  | length denotes =>
      have alone := denotes.clear_of_trim (c := ',') (by decide)
      rw [Text.splitOn_eq, List.splitOn_eq_singleton alone]
      simp [denotes.parameter?]
  | both first second =>
      have firstAlone := first.clear_of_trim (c := ',') (by decide)
      have secondAlone := second.clear_of_trim (c := ',') (by decide)
      rw [Text.splitOn_eq, List.splitOn_eq_splitOnP, List.splitOnP_append_cons _ _ (by simp),
        ← List.splitOn_eq_splitOnP, ← List.splitOn_eq_splitOnP,
        List.splitOn_eq_singleton firstAlone, List.splitOn_eq_singleton secondAlone]
      simp [first.parameter?, second.parameter?]

theorem Lists.unclosed (lists : Lists list length scale) : ')' ∉ list := by
  cases lists with
  | length denotes => exact denotes.clear_of_trim (by decide)
  | both first second =>
      rw [List.mem_append, List.mem_cons, not_or, not_or]
      exact ⟨first.clear_of_trim (by decide), by decide, second.clear_of_trim (by decide)⟩

theorem parenthesized?_append {front : Text} (opens : '(' ∉ front) (closes : ')' ∉ list)
    (back : Text) :
    parenthesized? (front ++ '(' :: (list ++ ')' :: back)) = some (front, list, back) := by
  have inFront : ∀ c ∈ front, (c != '(') = true := by
    intro c member
    exact bne_iff_ne.mpr fun equal => opens (equal ▸ member)
  have inList : ∀ c ∈ list, (c != ')') = true := by
    intro c member
    exact bne_iff_ne.mpr fun equal => closes (equal ▸ member)
  have listStarts : Text.Stops (· != '(') ('(' :: (list ++ ')' :: back)) :=
    Text.stops_cons.mpr (by decide)
  have listEnds : Text.Stops (· != ')') (')' :: back) := Text.stops_cons.mpr (by decide)
  simp only [parenthesized?, Text.dropWhile_append_of_stops inFront listStarts,
    Text.takeWhile_append_of_stops inFront listStarts,
    Text.dropWhile_append_of_stops inList listEnds,
    Text.takeWhile_append_of_stops inList listEnds]

theorem parenthesized?_eq_none {text : Text} (clear : '(' ∉ text) :
    parenthesized? text = none := by
  have inside : ∀ c ∈ text, (c != '(') = true := by
    intro c member
    exact bne_iff_ne.mpr fun equal => clear (equal ▸ member)
  rw [parenthesized?, List.dropWhile_eq_nil_iff.mpr inside]

end List

/-! ## Array marks -/

/-- Split a declared type from which an array mark has been taken off. -/
def ofUnmarked (mark text : Text) : DeclaredType :=
  match parenthesized? text with
  | none => { name := List.intercalate [' '] text.words ++ mark }
  | some (before, list, after) =>
      let parameters := (Text.splitOn ',' list).map Text.trim
      { name := List.intercalate [' '] (before ++ ' ' :: after).words ++ mark
        length := parameters[0]?.bind parameter?
        scale := parameters[1]?.bind parameter? }

theorem read_append_mark (text : Text) {blanks : Text} (blank : Text.Blank blanks) :
    read (text ++ "[]".toList ++ blanks) = ofUnmarked "[]".toList (Text.trim text) := by
  have trimmed : Text.trim (text ++ "[]".toList ++ blanks) =
      Text.trimLeft text ++ "[]".toList := by
    rw [Text.trim_of_append_blank blank, Text.trim_append (by decide) (by decide)]
  rw [read, trimmed, Text.before?_append]
  rfl

theorem read_of_not_suffix {text : Text} (unmarked : ¬"[]".toList <:+ Text.trim text) :
    read text = ofUnmarked [] (Text.trim text) := by
  rw [read, Text.before?_eq_none_iff.mpr unmarked]
  rfl

/-- The length of a declared type can be written. -/
theorem inLimit_of_read_length {declared : Text} {length : Int}
    (found : (read declared).length = some length) : Integer.InLimit length.natAbs := by
  have known : ∃ mark text, read declared = ofUnmarked mark text := by
    rw [read]
    split
    exact ⟨_, _, rfl⟩
  obtain ⟨mark, text, equal⟩ := known
  rw [equal, ofUnmarked] at found
  split at found
  · cases found
  · obtain ⟨parameter, _, read⟩ := Option.bind_eq_some_iff.mp found
    exact inLimit_of_parameter? read

/-- A mark at the end of a text is a mark at the end of its last word. -/
theorem exists_last_word {text : Text} (marked : "[]".toList <:+ text) :
    ∃ word, text.words.getLast? = some word ∧ "[]".toList <:+ word := by
  obtain ⟨front, rfl⟩ := marked
  have solid : Text.Solid "[]".toList := by decide
  obtain ⟨others, lead, equal⟩ := Text.exists_words_append_solid front (by decide) solid
  exact ⟨lead ++ "[]".toList, by rw [equal, List.getLast?_concat], List.suffix_append _ _⟩

/-! ## Assembled types -/

/-- The text of a declared type without its array mark: words, or words around a list of
parameters. -/
inductive Declares : Text → List Text → Option Int → Option Int → Prop where
  | bare {text : Text} {words : List Text} :
      Text.Separated words text → Declares text words none none
  | listed {front list back : Text} {before after : List Text} {length scale : Option Int} :
      Text.Separated before front → Lists list length scale → Text.Separated after back →
      Declares (front ++ '(' :: (list ++ ')' :: back)) (before ++ after) length scale

section Assembled

variable {text : Text} {words : List Text} {length scale : Option Int}

theorem opens_not_mem (separated : Text.Separated words text) (plain : ∀ word ∈ words, '(' ∉ word) :
    '(' ∉ text := by
  intro member
  rcases separated.mem member with blank | ⟨word, wordMem, inside⟩
  · exact absurd blank (by decide)
  · exact plain word wordMem inside

/-- The blanks at the ends of a text with a list are those of the texts around the list. -/
theorem trim_listed (front list back : Text) :
    Text.trim (front ++ '(' :: (list ++ ')' :: back)) =
      Text.trimLeft front ++ '(' :: (list ++ ')' :: Text.trimRight back) := by
  have trimmed : Text.Trimmed ('(' :: list ++ [')']) :=
    Text.trimmed_append (List.cons_ne_nil _ _) (Text.stops_cons.mpr (by decide)) (by decide)
      (by decide)
  simpa using Text.trim_around (by simp) trimmed front back

/-- Splitting gives the words and the parameters, whatever mark has been taken off. -/
theorem Declares.ofUnmarked_trim (declares : Declares text words length scale)
    (plain : ∀ word ∈ words, '(' ∉ word) (mark : Text) :
    ofUnmarked mark (Text.trim text) =
      { name := List.intercalate [' '] words ++ mark, length, scale } := by
  cases declares with
  | bare separated =>
      have clear : '(' ∉ Text.trim text :=
        fun member => opens_not_mem separated plain (Text.trim_subset text member)
      rw [ofUnmarked, parenthesized?_eq_none clear]
      simp only [Text.words_trim, separated.words_eq]
  | @listed front list back before after length scale first lists second =>
      have clear : '(' ∉ Text.trimLeft front := fun member =>
        opens_not_mem first (fun word inside => plain word (List.mem_append_left after inside))
          ((Text.trimLeft_suffix front).subset member)
      have words : (Text.trimLeft front ++ ' ' :: Text.trimRight back).words = before ++ after := by
        rw [Text.words_append_cons (by decide), Text.words_trimLeft, Text.words_trimRight,
          first.words_eq, second.words_eq]
      obtain ⟨lengthRead, scaleRead⟩ := lists.parameters
      rw [ofUnmarked, trim_listed, parenthesized?_append clear lists.unclosed]
      simp only [words, lengthRead, scaleRead]

/-- A mark at the end of the text is one at the end of the last word. -/
theorem Declares.exists_marked_word (declares : Declares text words length scale)
    (marked : "[]".toList <:+ Text.trim text) :
    ∃ word, words.getLast? = some word ∧ "[]".toList <:+ word := by
  cases declares with
  | bare separated =>
      have found := exists_last_word marked
      rwa [Text.words_trim, separated.words_eq] at found
  | @listed front list back before after length scale first lists second =>
      have behind : "[]".toList <:+ Text.trimRight back := by
        have closing : ')' :: Text.trimRight back <:+
            Text.trim (front ++ '(' :: (list ++ ')' :: back)) := by
          rw [trim_listed, ← List.cons_append, ← List.append_assoc]
          exact List.suffix_append _ _
        rcases List.suffix_or_suffix_of_suffix marked closing with inside | around
        · rcases List.suffix_cons_iff.mp inside with whole | behind
          · exact absurd (List.cons.inj whole).1 (by decide)
          · exact behind
        · exact absurd (around.subset List.mem_cons_self) (by decide)
      obtain ⟨word, last, marked⟩ := exists_last_word behind
      rw [Text.words_trimRight, second.words_eq] at last
      exact ⟨word, by rw [List.getLast?_append, last, Option.some_or], marked⟩

end Assembled

/-- A declared type is split into its words, joined by single spaces with the array mark
behind them, and its parameters, however it is spaced.  A closing parenthesis in a word would
do no harm, because the list is the first one that opens. -/
theorem splits_assembled {text : Text} {words : List Text} {length scale : Option Int}
    (declares : Declares text words length scale)
    (plain : ∀ word ∈ words, '(' ∉ word) :
    (∀ blanks, Text.Blank blanks → read (text ++ "[]".toList ++ blanks) =
      { name := List.intercalate [' '] words ++ "[]".toList, length, scale }) ∧
    ((∀ word, words.getLast? = some word → ¬"[]".toList <:+ word) → read text =
      { name := List.intercalate [' '] words, length, scale }) := by
  constructor
  · intro blanks blank
    rw [read_append_mark text blank, declares.ofUnmarked_trim plain]
  · intro unmarked
    have noMark : ¬"[]".toList <:+ Text.trim text := by
      intro marked
      obtain ⟨word, last, ends⟩ := declares.exists_marked_word marked
      exact unmarked word last ends
    rw [read_of_not_suffix noMark, declares.ofUnmarked_trim plain, List.append_nil]

section Timestamp

/-- A type with a list among its words, oddly spaced. -/
def timestamp : Text := "TIMESTAMP\t( -12 , mAx )WITH  TIME\n ZONE ".toList

/-- The words of the type. -/
def timestampWords : List Text := ["TIMESTAMP", "WITH", "TIME", "ZONE"].map String.toList

theorem declares_timestamp : Declares timestamp timestampWords (some (-12)) (some (-1)) := by
  have inLimit : Integer.InLimit (Int.natAbs (-12)) := by decide
  have length : Denotes (Text.trim " -12 ".toList) (-12) := denotes_render inLimit
  have scale : Denotes (Text.trim " mAx ".toList) (-1) := .max (by decide)
  have before : Text.Separated ["TIMESTAMP".toList] "TIMESTAMP\t".toList := by decide
  have after : Text.Separated (["WITH", "TIME", "ZONE"].map String.toList)
    "WITH  TIME\n ZONE ".toList := by decide
  exact Declares.listed before (Lists.both length scale) after

end Timestamp

theorem splits_assembled_timestamp :
    Declares timestamp timestampWords (some (-12)) (some (-1)) ∧
      (∀ word ∈ timestampWords, '(' ∉ word) ∧
      (∀ word, timestampWords.getLast? = some word → ¬"[]".toList <:+ word) ∧
      read (timestamp ++ "[]".toList ++ "\t".toList) =
        { name := "TIMESTAMP WITH TIME ZONE[]".toList, length := some (-12), scale := some (-1) } ∧
      read timestamp =
        { name := "TIMESTAMP WITH TIME ZONE".toList, length := some (-12), scale := some (-1) } := by
  have plain : ∀ word ∈ timestampWords, '(' ∉ word := by decide
  have unmarked : ∀ word, timestampWords.getLast? = some word → ¬"[]".toList <:+ word := by
    rintro word last
    rw [← Option.some.inj last]
    decide
  obtain ⟨marked, bare⟩ := splits_assembled declares_timestamp plain
  exact ⟨declares_timestamp, plain, unmarked, marked "\t".toList (by decide), bare unmarked⟩

end DeclaredType

end SchemaNotation
