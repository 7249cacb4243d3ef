import SchemaNotation.Proofs.Literal

/-!
# Written types read back

A type text is a row of literals or, when it is none, a base with an optional length and an
optional array mark.  Reading accepts exactly these texts.  The types that have such a text
are the valid ones, and the written form of a valid type is one of its texts, so that
reading and writing types are inverse to each other up to blanks and digits.
-/

namespace SchemaNotation

namespace ColumnType

open Literal

/-! ## The parts of a simple type -/

/-- What stands behind the base of a simple type. -/
def suffix (length : Option Text) (isArray : Bool) : Text :=
  (length.elim [] fun digits => '(' :: digits ++ [')']) ++ (if isArray then "[]".toList else [])

/-- The parts of a simple type: a base that is a word, and the digits of the length if there
is one. -/
structure SimpleParts (base : Text) (length : Option Text) : Prop where
  filled : base ≠ []
  word : ∀ c ∈ base, isWord c = true
  digits : ∀ run, length = some run → run ≠ [] ∧ ∀ c ∈ run, isDigit c = true

section Simple

variable {text base : Text} {length : Option Text} {isArray : Bool}

theorem stops_suffix {isMember : Char → Bool} (parenthesis : isMember '(' = false)
    (bracket : isMember '[' = false) (length : Option Text) (isArray : Bool) :
    Text.Stops isMember (suffix length isArray) := by
  cases length with
  | some digits => exact Text.stops_cons.mpr parenthesis
  | none =>
      cases isArray with
      | true => exact Text.stops_cons.mpr bracket
      | false => exact Text.stops_nil isMember

theorem readArrayMark?_mark (isArray : Bool) :
    readArrayMark? (if isArray then "[]".toList else []) = some isArray := by
  cases isArray <;> rfl

/-- The parts of a written simple type are read back. -/
theorem SimpleParts.readSimple? (parts : SimpleParts base length) (isArray : Bool) :
    readSimple? (base ++ suffix length isArray) = some (base, length, isArray) := by
  have stops : Text.Stops isWord (suffix length isArray) :=
    stops_suffix (by decide) (by decide) length isArray
  have read : readLength? (suffix length isArray) =
      some (length, if isArray then "[]".toList else []) := by
    cases length with
    | none => cases isArray <;> rfl
    | some run =>
        obtain ⟨filled, inside⟩ := parts.digits run rfl
        have closes : Text.Stops isDigit (')' :: if isArray then "[]".toList else []) :=
          Text.stops_cons.mpr (by decide)
        simp only [suffix, Option.elim_some, List.cons_append, List.append_assoc, List.nil_append,
          readLength?]
        rw [Integer.digits?_append filled inside closes]
        rfl
  simp only [ColumnType.readSimple?, Text.word?_append parts.filled parts.word stops,
    Option.bind_eq_bind, Option.bind_some, read, readArrayMark?_mark]
  rfl

/-- What the parts of a simple type were read from. -/
theorem eq_append_of_readSimple? (found : readSimple? text = some (base, length, isArray)) :
    text = base ++ suffix length isArray ∧ SimpleParts base length := by
  simp only [readSimple?, Option.bind_eq_bind, Option.bind_eq_some_iff] at found
  obtain ⟨⟨word, rest⟩, wordFound, ⟨digits, tail⟩, lengthFound, mark, markFound, result⟩ := found
  cases result
  obtain ⟨parts, nonempty, inside, _⟩ := Text.eq_append_of_word? wordFound
  have ending : tail = if isArray then "[]".toList else [] := by
    unfold readArrayMark? at markFound
    split at markFound
    · next equal =>
        cases markFound
        exact equal
    · split at markFound
      · next equal =>
          cases markFound
          exact equal
      · cases markFound
  unfold readLength? at lengthFound
  split at lengthFound
  · next more opened =>
      have equal : rest = '(' :: more := opened
      split at lengthFound
      · next run behind digitsFound =>
          cases lengthFound
          obtain ⟨behindParts, filled, digits, _⟩ := Integer.eq_append_of_digits? digitsFound
          refine ⟨?_, nonempty, inside, ?_⟩
          · rw [parts, equal, behindParts, ending]
            simp [suffix]
          · intro found result
            cases result
            exact ⟨filled, digits⟩
      · cases lengthFound
  · cases lengthFound
    have equal : rest = if isArray then "[]".toList else [] := ending
    refine ⟨?_, nonempty, inside, by simp⟩
    rw [parts, equal]
    rfl

/-- The characters of a written simple type. -/
theorem SimpleParts.mem (parts : SimpleParts base length) {c : Char}
    (member : c ∈ base ++ suffix length isArray) :
    isWord c = true ∨ isDigit c = true ∨ c ∈ "()[]".toList := by
  rcases List.mem_append.mp member with inBase | inSuffix
  · exact Or.inl (parts.word c inBase)
  · rcases List.mem_append.mp inSuffix with inLength | inMark
    · cases length with
      | none => cases inLength
      | some run =>
          simp only [Option.elim_some, List.cons_append, List.mem_cons, List.mem_append,
            List.not_mem_nil, or_false] at inLength
          rcases inLength with rfl | inRun | rfl
          · exact Or.inr (Or.inr (by decide))
          · exact Or.inr (Or.inl ((parts.digits run rfl).2 c inRun))
          · exact Or.inr (Or.inr (by decide))
    · cases isArray with
      | true =>
          have brackets : "[]".toList ⊆ "()[]".toList := by decide
          exact Or.inr (Or.inr (brackets inMark))
      | false => cases inMark

/-- A simple type is a row of literals only when it is nothing but digits. -/
theorem SimpleParts.exists_row_iff (parts : SimpleParts base length) :
    (∃ literals, Row (base ++ suffix length isArray) literals) ↔
      length = none ∧ isArray = false ∧ ∀ c ∈ base, isDigit c = true := by
  constructor
  · rintro ⟨literals, row⟩
    have noBar : '|' ∉ base ++ suffix length isArray :=
      fun member => absurd (parts.mem member) (by decide)
    generalize written : base ++ suffix length isArray = text at row noBar
    cases row with
    | more => simp at noBar
    | @last literal wellFormed =>
        -- The first character is a word character, so the literal is a run of digits.
        obtain ⟨first, rest, shape⟩ := List.exists_cons_of_ne_nil parts.filled
        have firstWord := parts.word first (by simp [shape])
        rw [shape, List.cons_append] at written
        have allDigits : ∀ c ∈ base ++ suffix length isArray, isDigit c = true := by
          rw [shape, List.cons_append, written]
          cases literal with
          | string value =>
              rw [(List.cons.inj written).1] at firstWord
              exact absurd firstWord (by decide)
          | number negative run =>
              cases negative with
              | true =>
                  rw [(List.cons.inj written).1] at firstWord
                  exact absurd firstWord (by decide)
              | false => exact wellFormed.2
        refine ⟨?_, ?_, fun c member => allDigits c (List.mem_append_left _ member)⟩
        · cases length with
          | none => rfl
          | some digits => exact absurd (allDigits '(' (by simp [suffix])) (by decide)
        · cases isArray with
          | false => rfl
          | true => exact absurd (allDigits '[' (by simp [suffix])) (by decide)
  · rintro ⟨rfl, rfl, digits⟩
    have whole : base ++ suffix none false = (Source.number false base).text := by
      simp [suffix, Source.text]
    rw [whole]
    exact ⟨_, .last ⟨parts.filled, digits⟩⟩

end Simple

/-! ## The texts of types -/

/-- The text denotes the type.  A text that is a row of literals denotes a union, also when it
could be taken for the base of a simple type. -/
inductive Denotes : Text → ColumnType → Prop where
  | union {text : Text} {literals : List Source} {values : List Literal} :
      Row text literals → List.Forall₂ Source.Denotes literals values →
      Denotes text (.union values)
  | simple {base : Text} {length : Option Text} {isArray : Bool} :
      SimpleParts base length →
      (∀ digits, length = some digits → digits.length ≤ Integer.digitLimit) →
      (¬∃ literals, Row (base ++ suffix length isArray) literals) →
      Denotes (base ++ suffix length isArray)
        (.simple base (length.map fun digits => (Text.digitsValue digits : Int)) isArray)

theorem forall₂_denotes_iff {literals : List Source} {values : List Literal} :
    List.Forall₂ Source.Denotes literals values ↔ literals.mapM Source.value = .ok values := by
  simp only [mapM_eq_ok_iff, Source.value_eq_ok_iff]

/-- Reading accepts exactly the texts that denote a type, with blanks around. -/
theorem read_eq_ok_iff {text : Text} {type : ColumnType} :
    read text = .ok (some type) ↔ Denotes (Text.trim text) type := by
  dsimp only [read]
  generalize Text.trim text = inner
  constructor
  · intro found
    split at found
    · next literals read =>
        obtain ⟨values, converted, result⟩ := exists_of_bind_eq_ok found
        cases result
        exact .union (row_of_readLiterals? read) (forall₂_denotes_iff.mpr converted)
    · next noLiterals =>
        have noRow : ¬∃ literals, Row inner literals := by
          rintro ⟨literals, row⟩
          rw [readLiterals?_of_row row] at noLiterals
          cases noLiterals
        split at found
        · cases found
        · next base isArray simple =>
            cases found
            obtain ⟨rfl, parts⟩ := eq_append_of_readSimple? simple
            exact .simple parts (by simp) noRow
        · next base digits isArray simple =>
            obtain ⟨size, converted, result⟩ := exists_of_bind_eq_ok found
            cases result
            obtain ⟨rfl, parts⟩ := eq_append_of_readSimple? simple
            obtain ⟨short, rfl⟩ := Integer.ofDigits_eq_ok_iff.mp converted
            exact .simple parts (by simp [short]) noRow
  · intro denotes
    cases denotes with
    | union row values =>
        simp only [readLiterals?_of_row row, forall₂_denotes_iff.mp values]
        rfl
    | @simple base length isArray parts short noRow =>
        have noLiterals : readLiterals? (base ++ suffix length isArray) = none := by
          cases read : readLiterals? (base ++ suffix length isArray) with
          | none => rfl
          | some literals => exact (noRow ⟨literals, row_of_readLiterals? read⟩).elim
        rw [noLiterals, parts.readSimple?]
        cases length with
        | none => rfl
        | some digits =>
            simp only [Integer.ofDigits_eq_ok_iff.mpr ⟨short digits rfl, rfl⟩]
            rfl

section

variable {text : Text} {type : ColumnType}

theorem Denotes.ne_nil (denotes : Denotes text type) : text ≠ [] := by
  cases denotes with
  | union row => exact row.text_ne_nil
  | simple parts => simp [parts.filled]

theorem Denotes.trimmed (denotes : Denotes text type) : Text.Trimmed text := by
  cases denotes with
  | union row => exact row.trimmed
  | simple parts =>
      apply Text.trimmed_of_no_blank
      intro c member
      have clear : "()[]".toList.all (fun d => !isBlank d) = true := by decide
      rcases parts.mem member with isWord | isDigit | mark
      · exact isBlank_of_isWord isWord
      · exact isBlank_of_isDigit isDigit
      · simpa using List.all_eq_true.mp clear c mark

/-- No type text ends with a semicolon. -/
theorem Denotes.last (denotes : Denotes text type) : text.getLast? ≠ some ';' := by
  intro found
  cases denotes with
  | union row => exact absurd (row.ends found) (by decide)
  | simple parts => exact absurd (parts.mem (List.mem_of_getLast? found)) (by decide)

/-! ## Valid types -/

/-- A type that its written form can hold.  A base of digits alone needs a length or an
array mark, because without them it would be a literal. -/
def Valid : ColumnType → Prop
  | .simple base length isArray =>
      (base ≠ [] ∧ ∀ c ∈ base, isWord c = true) ∧
        (∀ value, length = some value → ∃ size : Nat, value = size ∧ Integer.InLimit size) ∧
        (length = none → isArray = false → ∃ c ∈ base, isDigit c = false)
  | .union values => values ≠ [] ∧ ∀ value ∈ values, value.Valid

/-- A type that a text denotes is valid. -/
theorem Denotes.valid (denotes : Denotes text type) : type.Valid := by
  cases denotes with
  | union row values =>
      constructor
      · rintro rfl
        exact row.ne_nil (List.forall₂_nil_right_iff.mp values)
      · intro value member
        obtain ⟨literal, literalMem, denotes⟩ := exists_of_forall₂ values member
        exact valid_of_value (row.wellFormed literal literalMem) denotes
  | @simple base length isArray parts short noRow =>
      refine ⟨⟨parts.filled, parts.word⟩, ?_, ?_⟩
      · intro value measured
        obtain ⟨digits, rfl, rfl⟩ := Option.map_eq_some_iff.mp measured
        have converted := Integer.ofDigits_eq_ok_iff.mpr ⟨short digits rfl, rfl⟩
        exact ⟨_, rfl, Integer.inLimit_of_ofDigits converted⟩
      · intro noLength noMark
        rw [parts.exists_row_iff] at noRow
        by_contra onlyDigits
        refine noRow ⟨Option.map_eq_none_iff.mp noLength, noMark, ?_⟩
        intro c member
        rw [← Bool.not_eq_false]
        exact fun other => onlyDigits ⟨c, member, other⟩

theorem render_simple (base : Text) (length : Option Int) (isArray : Bool) :
    render (.simple base length isArray) =
      base ++ suffix (length.map Integer.render) isArray := by
  cases length <;> simp [render, suffix]

/-- The digits of a length in the written form of a valid type. -/
theorem digits_of_length {length : Option Int}
    (inLimit : ∀ value, length = some value → ∃ size : Nat, value = size ∧ Integer.InLimit size)
    {run : Text} (written : length.map Integer.render = some run) :
    ∃ size : Nat, length = some (size : Int) ∧ run = Nat.toDigits 10 size ∧
      Integer.InLimit size := by
  rw [Option.map_eq_some_iff] at written
  obtain ⟨value, rfl, rfl⟩ := written
  obtain ⟨size, rfl, short⟩ := inLimit value rfl
  exact ⟨size, rfl, rfl, short⟩

theorem Valid.parts {base : Text} {length : Option Int} {isArray : Bool}
    (valid : Valid (.simple base length isArray)) :
    SimpleParts base (length.map Integer.render) := by
  obtain ⟨⟨filled, word⟩, inLimit, _⟩ := valid
  refine ⟨filled, word, ?_⟩
  intro run written
  obtain ⟨size, _, rfl, _⟩ := digits_of_length inLimit written
  exact ⟨Nat.toDigits_ne_nil, Integer.isDigit_toDigits⟩

/-- The written form of a valid type denotes the type. -/
theorem denotes_render (valid : type.Valid) : Denotes type.render type := by
  cases type with
  | union values =>
      obtain ⟨filled, valid⟩ := valid
      exact .union (row_render filled valid) (forall₂_denotes_iff.mpr (values_of_sources valid))
  | simple base length isArray =>
      have parts := valid.parts
      obtain ⟨_, inLimit, noLiteral⟩ := valid
      have short : ∀ digits, length.map Integer.render = some digits →
          digits.length ≤ Integer.digitLimit := by
        intro digits written
        obtain ⟨size, _, rfl, short⟩ := digits_of_length inLimit written
        exact short
      have noRow : ¬∃ literals,
          Row (base ++ suffix (length.map Integer.render) isArray) literals := by
        rw [parts.exists_row_iff]
        rintro ⟨noLength, noMark, digits⟩
        obtain ⟨c, member, other⟩ := noLiteral (Option.map_eq_none_iff.mp noLength) noMark
        rw [digits c member] at other
        cases other
      have measured : (length.map Integer.render).map
          (fun digits => (Text.digitsValue digits : Int)) = length := by
        cases length with
        | none => rfl
        | some value =>
            obtain ⟨size, rfl, _⟩ := inLimit value rfl
            exact congrArg (fun size : Nat => some (size : Int)) (Integer.digitsValue_toDigits size)
      have denotes : Denotes (base ++ suffix (length.map Integer.render) isArray) _ :=
        .simple parts short noRow
      rwa [measured, ← render_simple] at denotes

theorem trimmed_render (valid : type.Valid) : Text.Trimmed type.render :=
  (denotes_render valid).trimmed

/-- A valid type is read back from its written form. -/
theorem read_render (valid : type.Valid) : read type.render = .ok (some type) := by
  rw [read_eq_ok_iff, (trimmed_render valid).trim_eq]
  exact denotes_render valid

/-- A text is no type when it is neither a row of literals nor a simple type. -/
theorem read_eq_ok_none {text : Text} (trimmed : Text.Trimmed text)
    (noRow : ¬∃ literals, Row text literals)
    (noSimple : ∀ base length isArray, SimpleParts base length →
      text ≠ base ++ suffix length isArray) :
    read text = .ok none := by
  have noLiterals : readLiterals? text = none := by
    cases found : readLiterals? text with
    | none => rfl
    | some literals => exact (noRow ⟨literals, row_of_readLiterals? found⟩).elim
  have noParts : ColumnType.readSimple? text = none := by
    cases found : ColumnType.readSimple? text with
    | none => rfl
    | some simple =>
        obtain ⟨base, length, isArray⟩ := simple
        obtain ⟨shape, parts⟩ := eq_append_of_readSimple? found
        exact (noSimple base length isArray parts shape).elim
  simp only [read, trimmed.trim_eq, noLiterals, noParts]

theorem getLast?_suffix (digits : Text) (isArray : Bool) :
    (suffix (some digits) isArray).getLast? = some (if isArray then ']' else ')') := by
  cases isArray <;> simp [suffix, List.getLast?_cons]

/-- A length below zero has a written form, but that form is no type. -/
theorem read_render_of_negative {base : Text} (parts : SimpleParts base none) {value : Int}
    (below : value < 0) (isArray : Bool) :
    read (render (.simple base (some value) isArray)) = .ok none := by
  obtain ⟨size, rfl⟩ := Int.eq_negSucc_of_lt_zero below
  have written : render (.simple base (some (.negSucc size)) isArray) =
      base ++ suffix (some ('-' :: Nat.toDigits 10 (size + 1))) isArray := render_simple ..
  have last := getLast?_suffix ('-' :: Nat.toDigits 10 (size + 1)) isArray
  have closed : suffix (some ('-' :: Nat.toDigits 10 (size + 1))) isArray ≠ [] := by
    simp [suffix]
  rw [written]
  apply read_eq_ok_none
  · apply Text.trimmed_append parts.filled
    · intro c found
      exact isBlank_of_isWord (parts.word c (List.mem_of_head? found))
    · exact closed
    · constructor
      · intro c found
        cases found
        decide
      · intro c found
        rw [last] at found
        cases found
        cases isArray <;> decide
  · rintro ⟨literals, row⟩
    have ends := row.ends (List.getLast?_append_of_ne_nil base closed ▸ last)
    cases isArray <;> exact absurd ends (by decide)
  · intro other length mark otherParts shape
    have minus : '-' ∈ other ++ suffix length mark := by
      rw [← shape]
      simp [suffix]
    exact absurd (otherParts.mem minus) (by decide)

/-- A type that was read is valid. -/
theorem valid_of_read (found : read text = .ok (some type)) : type.Valid :=
  (read_eq_ok_iff.mp found).valid

/-- The types that are read from some text are the valid ones, and these are the types that
are read back from their written form. -/
theorem reads_exactly_valid (type : ColumnType) :
    ((∃ text, read text = .ok (some type)) ↔ type.Valid) ∧
      (read type.render = .ok (some type) ↔ type.Valid) := by
  refine ⟨⟨?_, fun valid => ⟨type.render, read_render valid⟩⟩, valid_of_read, read_render⟩
  rintro ⟨text, found⟩
  exact valid_of_read found

end

/-! ## Texts inside a type -/

/-- The texts a type carries along: its base, or its string literals. -/
def strings : ColumnType → List Text
  | .simple base _ _ => [base]
  | .union values => values.filterMap Literal.string?

/-- No text of a valid type has an apostrophe in it. -/
theorem Valid.clear {type : ColumnType} (valid : type.Valid) :
    ∀ string ∈ type.strings, apostrophe ∉ string := by
  intro string member
  cases type with
  | simple base length isArray =>
      rw [strings, List.mem_singleton] at member
      rw [member]
      exact fun inside => absurd (valid.1.2 apostrophe inside) (by decide)
  | union values =>
      obtain ⟨value, valueMem, isString⟩ := List.mem_filterMap.mp member
      have known := valid.2 value valueMem
      cases value with
      | number value => cases isString
      | string value =>
          cases isString
          exact known

theorem string_mem_of_value {found : Source} {value : Text}
    (denotes : found.Denotes (.string value)) : found = .string value := by
  cases denotes
  rfl

/-- The texts of a type stand in the text that denotes the type. -/
theorem Denotes.strings_subset {text : Text} {type : ColumnType} (denotes : Denotes text type) :
    ∀ string ∈ type.strings, string ⊆ text := by
  intro string member
  cases denotes with
  | union row values =>
      obtain ⟨value, valueMem, isString⟩ := List.mem_filterMap.mp member
      obtain ⟨literal, literalMem, denotes⟩ := exists_of_forall₂ values valueMem
      cases value with
      | number value => cases isString
      | string value =>
          cases isString
          rw [string_mem_of_value denotes] at literalMem
          intro c inside
          exact (row.within literalMem).subset (by simp [Source.text, inside])
  | simple parts =>
      rw [strings, List.mem_singleton] at member
      rw [member]
      exact List.subset_append_left _ _

/-- A type is cut out of the text it was read from. -/
theorem strings_subset_of_read {text : Text} {type : ColumnType}
    (found : read text = .ok (some type)) : ∀ string ∈ type.strings, string ⊆ text :=
  fun string member => List.Subset.trans ((read_eq_ok_iff.mp found).strings_subset string member)
    (Text.trim_subset text)

theorem lineFree_toDigits (value : Nat) : Text.LineFree (Nat.toDigits 10 value) := by
  constructor
  · intro member
    exact absurd (Integer.isDigit_toDigits _ member) (by decide)
  · intro member
    exact absurd (Integer.isDigit_toDigits _ member) (by decide)

theorem lineFree_integer (value : Int) : Text.LineFree (Integer.render value) := by
  cases value with
  | ofNat value => exact lineFree_toDigits value
  | negSucc value =>
      rw [Integer.render, Text.lineFree_cons]
      exact ⟨by decide, lineFree_toDigits (value + 1)⟩

/-- A type whose texts fit on one line is written on one line. -/
theorem lineFree_render {type : ColumnType} (free : ∀ string ∈ type.strings, Text.LineFree string) :
    Text.LineFree type.render := by
  cases type with
  | union values =>
      rw [render]
      induction values with
      | nil => simp
      | cons value values ih =>
          have first : Text.LineFree value.render := by
            cases value with
            | number number => exact lineFree_integer number
            | string text =>
                have inside := free text (by simp [strings, Literal.string?])
                rw [Literal.render, Text.lineFree_append, Text.lineFree_cons]
                exact ⟨⟨by decide, inside⟩, by decide⟩
          have rest := ih (fun string member => free string (by
            simp only [strings, List.mem_filterMap] at member ⊢
            obtain ⟨other, otherMem, isString⟩ := member
            exact ⟨other, List.mem_cons_of_mem _ otherMem, isString⟩))
          cases values with
          | nil => simpa using first
          | cons next values =>
              rw [List.map_cons, List.map_cons, List.intercalate_cons_cons, ← List.map_cons,
                Text.lineFree_append, Text.lineFree_append]
              exact ⟨⟨first, by decide⟩, rest⟩
  | simple base length isArray =>
      have inside := free base (by simp [strings])
      rw [render_simple, suffix]
      cases length <;> cases isArray <;> simp [inside, lineFree_integer]

end ColumnType

end SchemaNotation
