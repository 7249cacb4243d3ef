import Mathlib.Data.List.Infix
import SchemaNotation.Proofs.ColumnType
import SchemaNotation.Proofs.TableConstraint
import SchemaNotation.Tag

/-!
# Annotations read back

An annotation opens with an at sign, a word and a colon.  A text in which none opens is
passed over, and annotations joined by commas are read back in order.
-/

deriving instance ReflBEq, LawfulBEq for SchemaNotation.Tag

namespace SchemaNotation.Tag

/-! ## Texts without annotations -/

/-- Whether an annotation opens right here. -/
def opensHere : Text → Bool
  | '@' :: text => !(text.takeWhile isWord).isEmpty && (text.dropWhile isWord).head? == some ':'
  | _ => false

/-- No annotation opens in the text. -/
def Silent (text : Text) : Prop :=
  ∀ back, back <:+ text → opensHere back = false

/-- The characters that can stand between an at sign and the value behind it. -/
def isOpening (c : Char) : Bool :=
  isWord c || c == ':'

theorem opensHere_cons_of_ne {c : Char} (other : c ≠ '@') (text : Text) :
    opensHere (c :: text) = false := by
  unfold opensHere
  split
  · next equal => exact (other (List.cons.inj equal).1).elim
  · rfl

theorem silent_nil : Silent [] := by
  intro back suffix
  rw [List.suffix_nil.mp suffix]
  rfl

theorem silent_cons {c : Char} {text : Text} :
    Silent (c :: text) ↔ opensHere (c :: text) = false ∧ Silent text := by
  constructor
  · intro silent
    exact ⟨silent _ (List.suffix_refl _), fun back suffix =>
      silent back (suffix.trans (List.suffix_cons c text))⟩
  · rintro ⟨here, silent⟩ back suffix
    rcases List.suffix_cons_iff.mp suffix with rfl | suffix
    · exact here
    · exact silent back suffix

theorem silent_of_not_mem {text : Text} (clear : '@' ∉ text) : Silent text := by
  intro back suffix
  cases back with
  | nil => rfl
  | cons c back =>
      apply opensHere_cons_of_ne
      rintro rfl
      exact clear (suffix.subset (by simp))

/-- An annotation that opens here opens before a character that stops it. -/
theorem opensHere_append {c : Char} {first second : Text} (stops : Text.Stops isOpening second) :
    opensHere (c :: first ++ second) = opensHere (c :: first) := by
  by_cases isMark : c = '@'
  · have noWord : Text.Stops isWord second := by
      intro d found
      exact (Bool.or_eq_false_iff.mp (stops d found)).1
    have noColon : second.head? ≠ some ':' := by
      intro starts
      exact absurd (stops ':' starts) (by decide)
    have parts := List.takeWhile_append_dropWhile (p := isWord) (l := first)
    have inside : ∀ d ∈ first.takeWhile isWord, isWord d = true := fun d => Text.mem_takeWhile
    rw [isMark, List.cons_append, opensHere, opensHere]
    cases dropped : first.dropWhile isWord with
    | nil =>
        rw [dropped, List.append_nil] at parts
        rw [parts] at inside
        rw [Text.dropWhile_append_of_stops inside noWord]
        simp [noColon]
    | cons d rest =>
        have further : Text.Stops isWord (d :: rest ++ second) := by
          have here := Text.stops_dropWhile isWord first
          rw [dropped, Text.stops_cons] at here
          exact Text.stops_cons.mpr here
        have shape : first ++ second = first.takeWhile isWord ++ (d :: rest ++ second) := by
          rw [← List.append_assoc, ← dropped, parts]
        rw [shape, Text.takeWhile_append_of_stops inside further,
          Text.dropWhile_append_of_stops inside further]
        rfl
  · rw [List.cons_append, opensHere_cons_of_ne isMark, opensHere_cons_of_ne isMark]

/-- A text is silent when its parts are, provided that no annotation can open in one and
go on in the next. -/
theorem silent_append {first second : Text} (stops : Text.Stops isOpening second)
    (firstSilent : Silent first) (secondSilent : Silent second) : Silent (first ++ second) := by
  induction first with
  | nil => exact secondSilent
  | cons c first ih =>
      rw [silent_cons] at firstSilent
      rw [List.cons_append, silent_cons, ← List.cons_append, opensHere_append stops]
      exact ⟨firstSilent.1, ih firstSilent.2⟩

theorem silent_plain_append {plain text : Text} (clear : '@' ∉ plain) (silent : Silent text) :
    Silent (plain ++ text) := by
  induction plain with
  | nil => exact silent
  | cons c plain ih =>
      rw [List.mem_cons, not_or] at clear
      rw [List.cons_append, silent_cons]
      exact ⟨opensHere_cons_of_ne (Ne.symm clear.1) _, ih clear.2⟩

/-- Doubling backticks opens no annotation, because none has a backtick. -/
theorem silent_double {name : Text} (silent : Silent name) : Silent (Identifier.double name) := by
  induction name with
  | nil => exact silent
  | cons c name ih =>
      rw [silent_cons] at silent
      by_cases isMark : c = backtick
      · rw [isMark, Identifier.double_backtick, silent_cons, silent_cons]
        exact ⟨opensHere_cons_of_ne (by decide) _, opensHere_cons_of_ne (by decide) _, ih silent.2⟩
      · rw [Identifier.double_cons_of_ne isMark, silent_cons]
        refine ⟨?_, ih silent.2⟩
        by_cases isAt : c = '@'
        · have here := silent.1
          rw [isAt, opensHere] at here ⊢
          rw [Identifier.takeWhile_double, Identifier.head?_dropWhile_double]
          exact here
        · exact opensHere_cons_of_ne isAt _

theorem silent_render {name : Text} (free : '\n' ∉ name) (silent : Silent name) :
    Silent (Identifier.render name) := by
  rcases Identifier.render_cases free with ⟨_, written⟩ | ⟨_, written⟩
  · rw [written]
    exact silent
  · rw [written, Identifier.quote, List.cons_append, silent_cons]
    exact ⟨opensHere_cons_of_ne (by decide) _, silent_append (Text.stops_cons.mpr (by decide))
      (silent_double silent) (silent_of_not_mem (by decide))⟩

theorem silent_intercalate {pieces : List Text} (silent : ∀ piece ∈ pieces, Silent piece) :
    Silent (List.intercalate ", ".toList pieces) := by
  induction pieces with
  | nil => exact silent_nil
  | cons piece pieces ih =>
      cases pieces with
      | nil =>
          rw [List.intercalate_singleton]
          exact silent piece (by simp)
      | cons next pieces =>
          have rest := ih fun other member => silent other (List.mem_cons_of_mem piece member)
          rw [List.intercalate_cons_cons, List.append_assoc]
          exact silent_append (Text.stops_cons.mpr (by decide)) (silent piece (by simp))
            (silent_plain_append (by decide) rest)

/-- A table constraint states no annotation unless one of its names does. -/
theorem silent_tableConstraint {constraint : TableConstraint}
    (free : ∀ name ∈ constraint.columns, '\n' ∉ name)
    (silent : ∀ name ∈ constraint.columns, Silent name) : Silent constraint.render := by
  have keyword : '@' ∉ constraint.kind.keyword := by cases constraint.kind <;> decide
  have names : Silent (List.intercalate ", ".toList (constraint.columns.map Identifier.render)) := by
    apply silent_intercalate
    intro piece member
    obtain ⟨name, nameMem, rfl⟩ := List.mem_map.mp member
    exact silent_render (free name nameMem) (silent name nameMem)
  rw [TableConstraint.render_eq, List.cons_append]
  apply silent_plain_append keyword
  rw [silent_cons]
  exact ⟨opensHere_cons_of_ne (by decide) _, silent_append (Text.stops_cons.mpr (by decide)) names
    (silent_of_not_mem (by decide))⟩

/-! ## Annotations among other text -/

theorem readAll_cons (c : Char) (text : Text) :
    readAll (c :: text) =
      match readHere? (c :: text) with
      | some (tag, rest) => tag :: readAll rest
      | none => readAll text := by
  rw [readAll]
  split
  · next found => simp only [found]
  · next found => simp only [found]

theorem readHere?_of_closed {text : Text} (closed : opensHere text = false) :
    readHere? text = none := by
  unfold readHere?
  split
  · next text =>
      split
      · next name rest found =>
          exfalso
          unfold Text.word? at found
          split at found
          · cases found
          · next filled =>
              obtain ⟨equal, dropped⟩ := Prod.mk.inj (Option.some.inj found)
              rw [opensHere, dropped, equal] at closed
              rw [equal] at filled
              cases name with
              | nil => exact filled rfl
              | cons c name => cases closed
      · rfl
  · rfl

/-- Silent text in front changes nothing. -/
theorem readAll_append {first second : Text} (silent : Silent first)
    (stops : Text.Stops isOpening second) : readAll (first ++ second) = readAll second := by
  induction first with
  | nil => rfl
  | cons c first ih =>
      rw [silent_cons] at silent
      have closed : opensHere (c :: first ++ second) = false :=
        (opensHere_append stops).trans silent.1
      rw [List.cons_append, readAll_cons, ← List.cons_append, readHere?_of_closed closed]
      exact ih silent.2

theorem readAll_of_silent {text : Text} (silent : Silent text) : readAll text = [] := by
  have nothing := readAll_append silent (Text.stops_nil isOpening)
  rwa [List.append_nil, show readAll [] = [] by rw [readAll]] at nothing

/-! ## Written annotations -/

/-- An annotation that is read back from its written form. -/
structure Readable (tag : Tag) : Prop where
  named : tag.name ≠ []
  word : ∀ c ∈ tag.name, isWord c = true
  filled : tag.value ≠ []
  trimmed : Text.Trimmed tag.value
  free : Text.LineFree tag.value
  apart : ∀ rest, ',' :: rest <:+ tag.value → (Text.trimLeft rest).head? ≠ some '@'

/-- An annotation whose value ends in its written form where it ends: at the end of the
text, or before the comma of the next annotation. -/
structure Delimited (tag : Tag) : Prop where
  named : tag.name ≠ []
  word : ∀ c ∈ tag.name, isWord c = true
  filled : tag.value ≠ []
  trimmed : Text.Trimmed tag.value
  free : '\n' ∉ tag.value
  apart : ∀ rest, ',' :: rest <:+ tag.value → (Text.trimLeft rest).head? ≠ some '@'

theorem Readable.delimited {tag : Tag} (readable : tag.Readable) : tag.Delimited where
  named := readable.named
  word := readable.word
  filled := readable.filled
  trimmed := readable.trimmed
  free := readable.free.2
  apart := readable.apart

instance (tag : Tag) : Decidable tag.Delimited :=
  decidable_of_iff (tag.name ≠ [] ∧ tag.name.all isWord = true ∧ tag.value ≠ [] ∧
    Text.Trimmed tag.value ∧ '\n' ∉ tag.value ∧ ∀ back ∈ tag.value.tails,
      back.head? = some ',' → (Text.trimLeft back.tail).head? ≠ some '@') (by
    constructor
    · rintro ⟨named, word, filled, trimmed, free, apart⟩
      refine ⟨named, List.all_eq_true.mp word, filled, trimmed, free, ?_⟩
      intro rest suffix
      exact apart (',' :: rest) ((List.mem_tails _ _).mpr suffix) rfl
    · intro delimited
      have word := List.all_eq_true.mpr delimited.word
      refine ⟨delimited.named, word, delimited.filled, delimited.trimmed, delimited.free, ?_⟩
      intro back member comma
      cases back with
      | nil => cases comma
      | cons c rest =>
          cases comma
          exact delimited.apart rest ((List.mem_tails _ _).mp member))

instance (tag : Tag) : Decidable tag.Readable :=
  decidable_of_iff (tag.Delimited ∧ Text.LineFree tag.value)
    ⟨fun ⟨delimited, free⟩ => { delimited with free },
      fun readable => ⟨readable.delimited, readable.free⟩⟩

theorem trimmed_render {tag : Tag} (readable : tag.Readable) : Text.Trimmed tag.render :=
  Text.trimmed_append (by simp) (Text.stops_cons.mpr (by decide)) readable.filled readable.trimmed

/-- The texts of an annotation. -/
def strings (tag : Tag) : List Text :=
  [tag.name, tag.value]

theorem lineFree_render {tag : Tag} (free : ∀ string ∈ tag.strings, Text.LineFree string) :
    Text.LineFree tag.render := by
  have colon : Text.LineFree ": ".toList := by
    decide
  rw [render, Text.lineFree_append, List.cons_append, Text.lineFree_cons, Text.lineFree_append]
  exact ⟨⟨by decide, free tag.name (by simp [strings]), colon⟩, free tag.value (by simp [strings])⟩

theorem Readable.lineFree {tag : Tag} (readable : tag.Readable) :
    ∀ string ∈ tag.strings, Text.LineFree string := by
  have name : Text.LineFree tag.name := by
    constructor
    · intro member
      exact absurd (readable.word _ member) (by decide)
    · intro member
      exact absurd (readable.word _ member) (by decide)
  intro string member
  rcases List.mem_pair.mp member with rfl | rfl
  · exact name
  · exact readable.free

theorem render_ne_nil (tag : Tag) : tag.render ≠ [] :=
  List.cons_ne_nil '@' _

/-- What can follow an annotation: nothing, or a comma and the next one. -/
def Follows (text : Text) : Prop :=
  text = [] ∨ ∃ rest, text = ',' :: ' ' :: '@' :: rest

theorem endsValue_of_follows {text : Text} (follows : Follows text) : endsValue text = true := by
  rcases follows with rfl | ⟨rest, rfl⟩
  · rfl
  · have next : Text.trimLeft (' ' :: '@' :: rest) = '@' :: rest := by
      rw [Text.trimLeft, List.dropWhile_cons, if_pos (by decide)]
      exact Text.trimLeft_of_stops (Text.stops_cons.mpr (by decide))
    simp [endsValue, next]

/-- A comma ends a value only when blanks and the next at sign follow. -/
theorem endsValue_cons_of_apart {c : Char} {text : Text}
    (filled : Text.isAllBlank (c :: text) = false)
    (apart : c = ',' → (Text.trimLeft text).head? ≠ some '@') : endsValue (c :: text) = false := by
  unfold endsValue
  rw [filled, Bool.false_or]
  split
  · next equal =>
      obtain ⟨rfl, rfl⟩ := List.cons.inj equal
      exact beq_eq_false_iff_ne.mpr (apart rfl)
  · rfl

/-- Behind a comma in a value comes no at sign, also with what follows the value. -/
theorem Delimited.apart_append {tag : Tag} (delimited : tag.Delimited) {back rest : Text}
    (suffix : ',' :: back <:+ tag.value) (follows : Follows rest) :
    (Text.trimLeft (back ++ rest)).head? ≠ some '@' := by
  by_cases blank : Text.Blank back
  · have nothing : back = [] := by
      by_contra filled
      exact delimited.trimmed.not_blank_of_suffix ((List.suffix_cons ',' back).trans suffix) filled
        blank
    rw [nothing, List.nil_append]
    rcases follows with rfl | ⟨more, rfl⟩
    · simp [Text.trimLeft]
    · rw [Text.trimLeft_of_stops (Text.stops_cons.mpr (by decide))]
      simp
  · have kept : Text.trimLeft back ≠ [] := by
      rw [Text.trimLeft, Ne, List.dropWhile_eq_nil_iff]
      exact blank
    rw [Text.trimLeft_append kept, List.head?_append_of_ne_nil _ kept]
    exact delimited.apart back suffix

/-- The value of an annotation does not end before its last character. -/
theorem endsValue_early {tag : Tag} (delimited : tag.Delimited) {rest : Text}
    (follows : Follows rest) :
    ∀ back, back <:+ tag.value → back ≠ [] → endsValue (back ++ rest) = false := by
  intro back suffix filled
  have solid : Text.isAllBlank (back ++ rest) = false := by
    rw [Text.isAllBlank, List.all_append, Bool.and_eq_false_iff]
    left
    rw [← Bool.not_eq_true, List.all_eq_true]
    exact delimited.trimmed.not_blank_of_suffix suffix filled
  cases back with
  | nil => exact (filled rfl).elim
  | cons c back =>
      apply endsValue_cons_of_apart solid
      rintro rfl
      exact delimited.apart_append suffix follows

theorem readHere?_render {tag : Tag} (delimited : tag.Delimited) {rest : Text}
    (follows : Follows rest) : readHere? (tag.render ++ rest) = some (tag, rest) := by
  have shape : tag.render ++ rest = '@' :: (tag.name ++ ':' :: ([' '] ++ (tag.value ++ rest))) := by
    simp [render]
  have colon : Text.Stops isWord (':' :: ([' '] ++ (tag.value ++ rest))) :=
    Text.stops_cons.mpr (by decide)
  have starts : Text.Stops isBlank (tag.value ++ rest) := by
    intro c found
    rw [List.head?_append_of_ne_nil _ delimited.filled] at found
    exact delimited.trimmed.first c found
  have value := Text.shortestUntil_append delimited.filled delimited.free
    (endsValue_early delimited follows) (endsValue_of_follows follows)
  have behind : Text.afterBlanks (Text.shortestUntil endsValue) ([' '] ++ (tag.value ++ rest)) =
      some (tag.value, rest) := Text.afterBlanks_append (Text.blank_replicate 1) starts value
  rw [shape, readHere?, Text.word?_append delimited.named delimited.word colon]
  simp only [behind, Option.map_some, delimited.trimmed.trim_eq]

theorem readAll_render {tag : Tag} (delimited : tag.Delimited) {rest : Text}
    (follows : Follows rest) : readAll (tag.render ++ rest) = tag :: readAll rest := by
  have shape : tag.render ++ rest = '@' :: (tag.name ++ ": ".toList ++ tag.value ++ rest) := rfl
  have found := readHere?_render delimited follows
  rw [shape] at found ⊢
  rw [readAll_cons, found]

theorem readAll_single {tag : Tag} (delimited : tag.Delimited) : readAll tag.render = [tag] := by
  have single := readAll_render delimited (Or.inl rfl)
  rwa [List.append_nil, readAll_of_silent silent_nil] at single

/-- Annotations on lines of their own are read back in order. -/
theorem readLines_render {tags : List Tag} (readable : ∀ tag ∈ tags, tag.Readable) :
    readLines (tags.map render) = tags := by
  induction tags with
  | nil => rfl
  | cons tag tags ih =>
      rw [readLines] at ih ⊢
      rw [List.map_cons, List.flatMap_cons, readAll_single (readable tag (by simp)).delimited,
        ih fun other member => readable other (List.mem_cons_of_mem tag member)]
      rfl

/-- Joined annotations start with the mark of the first one. -/
theorem stops_intercalate (tags : List Tag) :
    Text.Stops isOpening (List.intercalate ", ".toList (tags.map render)) := by
  match tags with
  | [] => exact Text.stops_nil isOpening
  | [tag] => exact Text.stops_cons.mpr (by decide)
  | tag :: next :: tags => exact Text.stops_cons.mpr (by decide)

theorem silent_comma : Silent ", ".toList :=
  silent_of_not_mem (by decide)

/-- Annotations joined by commas are read back in order. -/
theorem readAll_intercalate {tags : List Tag} (delimited : ∀ tag ∈ tags, tag.Delimited) :
    readAll (List.intercalate ", ".toList (tags.map render)) = tags := by
  induction tags with
  | nil => exact readAll_of_silent silent_nil
  | cons tag tags ih =>
      cases tags with
      | nil =>
          rw [List.map_singleton, List.intercalate_singleton]
          exact readAll_single (delimited tag (by simp))
      | cons next tags =>
          have rest := ih fun other member => delimited other (List.mem_cons_of_mem tag member)
          obtain ⟨more, starts⟩ : ∃ more,
              List.intercalate ", ".toList ((next :: tags).map render) = '@' :: more := by
            cases tags <;> exact ⟨_, rfl⟩
          rw [List.map_cons, List.map_cons, List.intercalate_cons_cons, ← List.map_cons,
            List.append_assoc, readAll_render (delimited tag (by simp))
              (Or.inr ⟨more, by rw [starts]; rfl⟩),
            readAll_append silent_comma (stops_intercalate (next :: tags)), rest]

/-- Annotations joined by commas are read back in order, alone and behind any text without
an at sign. -/
theorem recovers_listed {tags : List Tag} (delimited : ∀ tag ∈ tags, tag.Delimited) :
    let listed := List.intercalate ", ".toList (tags.map render)
    readAll listed = tags ∧
      ∀ lead, '@' ∉ lead → readAll (lead ++ ", ".toList ++ listed) = tags := by
  intro listed
  have alone : readAll listed = tags := readAll_intercalate delimited
  refine ⟨alone, ?_⟩
  intro lead clear
  have quiet : '@' ∉ lead ++ ", ".toList := by
    rw [List.mem_append, not_or]
    exact ⟨clear, by decide⟩
  rw [readAll_append (silent_of_not_mem quiet) (stops_intercalate tags), alone]

/-- Annotations with commas, at signs, a carriage return and a further annotation's opening
in their values. -/
def crowdedTags : List Tag :=
  [⟨"unit²".toList, ",kg,, g,".toList⟩, ⟨"_".toList, "@@x: y @z:\rw, : @".toList⟩,
    ⟨"größe".toList, ":".toList⟩]

theorem recovers_listed_crowded :
    (∀ tag ∈ crowdedTags, tag.Delimited) ∧ '@' ∉ "UNIQUE,\nsee: x, ".toList ∧
      readAll (List.intercalate ", ".toList (crowdedTags.map render)) = crowdedTags ∧
      readAll ("UNIQUE,\nsee: x, ".toList ++ ", ".toList ++
        List.intercalate ", ".toList (crowdedTags.map render)) = crowdedTags := by
  have delimited : ∀ tag ∈ crowdedTags, tag.Delimited := by
    decide
  have clear : '@' ∉ "UNIQUE,\nsee: x, ".toList := by
    decide
  obtain ⟨alone, behind⟩ := recovers_listed delimited
  exact ⟨delimited, clear, alone, behind _ clear⟩

end SchemaNotation.Tag
