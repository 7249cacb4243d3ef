import SchemaNotation.Proofs.Mention
import SchemaNotation.Proofs.Document

/-!
# Why reading fails

Reading a document fails at a malformed line, at a number with too many digits, or at a
comment whose keyword has a dotted capital I in it.  What the second and the third kind of
error complain about stands in the text as it is, so a text without it is either read or
has a malformed line.
-/

namespace SchemaNotation

/-! ## Parts of a text -/

namespace Text

theorem eq_nil_of_prefix_cons {part text : Text} {separator : Char} (absent : separator ∉ part)
    (lead : part <+: separator :: text) : part = [] := by
  rcases List.prefix_cons_iff.mp lead with empty | ⟨tail, rfl, _⟩
  · exact empty
  · exact (absent (by simp)).elim

/-- What has no separator in it stands on one side of it. -/
theorem infix_append_cons {part first second : Text} {separator : Char} (absent : separator ∉ part)
    (inside : part <:+: first ++ separator :: second) : part <:+: first ∨ part <:+: second := by
  induction first with
  | nil =>
      rcases List.infix_cons_iff.mp inside with lead | behind
      · exact Or.inl (eq_nil_of_prefix_cons absent lead ▸ List.infix_rfl)
      · exact Or.inr behind
  | cons c first ih =>
      rcases List.infix_cons_iff.mp inside with lead | behind
      · -- A part that goes on behind the first text would start its rest with the separator.
        rcases List.prefix_or_prefix_of_prefix lead (List.prefix_append (c :: first) _) with
          short | ⟨rest, rfl⟩
        · exact Or.inl short.isInfix
        · have restLead := (List.prefix_append_right_inj (c :: first)).mp lead
          rw [List.mem_append, not_or] at absent
          rw [eq_nil_of_prefix_cons absent.2 restLead, List.append_nil]
          exact Or.inl List.infix_rfl
      · exact (ih behind).imp_left fun within => within.trans (List.suffix_cons c first).isInfix

theorem infix_joined {part first next : Text} (noSemicolon : ';' ∉ part) (noSpace : ' ' ∉ part)
    (inside : part <:+: first ++ "; ".toList ++ next) : part <:+: first ∨ part <:+: next := by
  rw [List.append_assoc] at inside
  rcases infix_append_cons noSemicolon inside with before | behind
  · exact Or.inl before
  · have spaced : part <:+: [] ++ ' ' :: next := behind
    rcases infix_append_cons noSpace spaced with empty | behind
    · rw [List.infix_nil.mp empty]
      exact Or.inl (List.nil_infix)
    · exact Or.inr behind

end Text

/-! ## Causes -/

/-- A run of digits in a text that is too long for a number. -/
inductive Integer.TooLong.StandsIn (text : Text) : TooLong → Prop where
  | run {digits : Text} (stands : digits <:+: text) (digital : ∀ c ∈ digits, isDigit c = true)
      (long : digitLimit < digits.length) : StandsIn text ⟨digits.length⟩

/-- A word in a text that is the keyword of a table constraint but for letter case, and
that has a dotted capital I in it. -/
inductive TableConstraint.UnknownKind.StandsIn (text : Text) : UnknownKind → Prop where
  | word {word : Text} {kind : Kind} (stands : word <:+: text)
      (same : Text.fold word = Text.fold kind.keyword) (dotted : dottedCapitalI ∈ word) :
      StandsIn text ⟨word⟩

/-- What brings about an error in the reading of a text. -/
inductive ReadError.Cause (options : ReadOptions) (text : Text) : ReadError → Prop where
  | malformed (error : LineError) : Cause options text (.malformed error)
  | tooLong {fault : Integer.TooLong} (stands : fault.StandsIn text) :
      Cause options text (.tooLong fault)
  | unknownKind {fault : TableConstraint.UnknownKind} (reads : options.skipConstraints = false)
      (stands : fault.StandsIn text) : Cause options text (.unknownKind fault)

theorem Integer.TooLong.StandsIn.mono {fault : TooLong} {part text : Text}
    (stands : fault.StandsIn part) (inside : part <:+: text) : fault.StandsIn text := by
  cases stands with
  | run within digital long => exact .run (within.trans inside) digital long

theorem TableConstraint.UnknownKind.StandsIn.mono {fault : UnknownKind} {part text : Text}
    (stands : fault.StandsIn part) (inside : part <:+: text) : fault.StandsIn text := by
  cases stands with
  | word within same dotted => exact .word (within.trans inside) same dotted

/-- No number reaches over the semicolon that joins two pieces. -/
theorem Integer.TooLong.StandsIn.joined {fault : TooLong} {first next : Text}
    (stands : fault.StandsIn (first ++ "; ".toList ++ next)) :
    fault.StandsIn first ∨ fault.StandsIn next := by
  cases stands with
  | @run digits stands digital long =>
      have noSemicolon : ';' ∉ digits := by
        intro member
        exact absurd (digital ';' member) (by decide)
      have noSpace : ' ' ∉ digits := by
        intro member
        exact absurd (digital ' ' member) (by decide)
      rcases Text.infix_joined noSemicolon noSpace stands with inFirst | inNext
      · exact Or.inl (.run inFirst digital long)
      · exact Or.inr (.run inNext digital long)

theorem TableConstraint.isKeyword_keyword (kind : Kind) : Text.IsKeyword kind.keyword := by
  cases kind <;> decide

/-- No keyword reaches over it either. -/
theorem TableConstraint.UnknownKind.StandsIn.joined {fault : UnknownKind} {first next : Text}
    (stands : fault.StandsIn (first ++ "; ".toList ++ next)) :
    fault.StandsIn first ∨ fault.StandsIn next := by
  cases stands with
  | @word word kind stands same dotted =>
      have isWord := Text.isWord_of_fold_eq (isKeyword_keyword kind) same
      have noSemicolon : ';' ∉ word := by
        intro member
        exact absurd (isWord ';' member) (by decide)
      have noSpace : ' ' ∉ word := by
        intro member
        exact absurd (isWord ' ' member) (by decide)
      rcases Text.infix_joined noSemicolon noSpace stands with inFirst | inNext
      · exact Or.inl (.word inFirst same dotted)
      · exact Or.inr (.word inNext same dotted)

namespace ReadError

variable {options : ReadOptions} {error : ReadError}

theorem Cause.mono {part text : Text} (cause : error.Cause options part) (inside : part <:+: text) :
    error.Cause options text := by
  cases cause with
  | malformed error => exact .malformed error
  | tooLong stands => exact .tooLong (stands.mono inside)
  | unknownKind reads stands => exact .unknownKind reads (stands.mono inside)

theorem Cause.joined {first next : Text}
    (cause : error.Cause options (first ++ "; ".toList ++ next)) :
    error.Cause options first ∨ error.Cause options next := by
  cases cause with
  | malformed error => exact Or.inl (.malformed error)
  | tooLong stands => exact stands.joined.imp .tooLong .tooLong
  | unknownKind reads stands => exact stands.joined.imp (.unknownKind reads) (.unknownKind reads)

end ReadError

/-! ## Types -/

theorem Integer.standsIn_of_ofDigits {digits text : Text} {fault : TooLong}
    (failed : ofDigits digits = .error fault) (digital : ∀ c ∈ digits, isDigit c = true)
    (stands : digits <:+: text) : fault.StandsIn text := by
  unfold ofDigits at failed
  split at failed
  · cases failed
  · next long =>
      cases failed
      exact .run stands digital (Nat.lt_of_not_le long)

theorem Literal.Source.standsIn_of_value {literal : Source} {fault : Integer.TooLong}
    (wellFormed : literal.WellFormed) (failed : literal.value = .error fault) :
    fault.StandsIn literal.text := by
  cases literal with
  | string value => cases failed
  | number negative digits =>
      rcases error_of_bind_eq_error failed with converting | ⟨_, _, impossible⟩
      · exact Integer.standsIn_of_ofDigits converting wellFormed.2 (List.suffix_append _ _).isInfix
      · cases impossible

namespace ColumnType

/-- A type is refused only for a number in it. -/
theorem standsIn_of_read {text : Text} {fault : Integer.TooLong}
    (failed : read text = .error fault) : fault.StandsIn text := by
  refine Integer.TooLong.StandsIn.mono ?_ (Text.trim_within text)
  dsimp only [read] at failed
  split at failed
  · next literals found =>
      rcases error_of_bind_eq_error failed with converting | ⟨_, _, impossible⟩
      · obtain ⟨literal, member, fails⟩ := exists_of_mapM_eq_error converting
        have row := row_of_readLiterals? found
        exact (Literal.Source.standsIn_of_value (row.wellFormed literal member) fails).mono
          (row.within member)
      · cases impossible
  · split at failed
    · cases failed
    · cases failed
    · next base digits isArray found =>
        rcases error_of_bind_eq_error failed with converting | ⟨_, _, impossible⟩
        · obtain ⟨shape, parts⟩ := eq_append_of_readSimple? found
          refine Integer.standsIn_of_ofDigits converting (parts.digits digits rfl).2 ?_
          rw [shape]
          exact ⟨base ++ ['('], ')' :: if isArray then "[]".toList else [], by simp [suffix]⟩
        · cases impossible

end ColumnType

/-! ## Lines of a table -/

section

variable {options : ReadOptions} {error : ReadError}

theorem Column.cause_of_read {number : Int} {source : Text}
    (failed : read options number source = .error error) : error.Cause options source := by
  obtain ⟨definition, rest, divides⟩ := Comment.exists_divides (Text.trim source)
  dsimp only [read] at failed
  rw [parts_of_divides (Text.trimmed_trim source) divides] at failed
  dsimp only at failed
  rcases error_of_bind_eq_error failed with undefined | ⟨⟨name, nullable, typeText⟩, defined, failed⟩
  · obtain ⟨defect, _, rfl⟩ := exists_of_mapError_eq_error undefined
    exact .malformed _
  · dsimp only at failed
    rcases error_of_bind_eq_error failed with untyped | ⟨type?, _, failed⟩
    · obtain ⟨fault, refused, rfl⟩ := exists_of_mapError_eq_error untyped
      obtain ⟨identifier, blanks, type, _, _, shape, rfl⟩ :=
        readDefinition_eq_ok_iff.mp (eq_ok_of_mapError_eq_ok defined)
      have behind : type <:+ dropSemicolon (Text.trim definition) := by
        rw [shape]
        exact (((List.suffix_cons ':' type).trans (List.suffix_append blanks _)).trans
          (List.suffix_append _ _)).trans (List.suffix_append identifier _)
      have within : dropSemicolon (Text.trim definition) <:+: Text.trim source :=
        ((dropSemicolon_isPrefix _).isInfix.trans (Text.trim_within definition)).trans
          divides.isPrefix.isInfix
      refine .tooLong ((ColumnType.standsIn_of_read refused).mono ?_)
      exact ((Text.trim_within type).trans behind.isInfix).trans
        (within.trans (Text.trim_within source))
    · cases type? with
      | none =>
          cases failed
          exact .malformed _
      | some type => cases failed

namespace TableConstraint

theorem standsIn_of_readKind? {kind : Kind} {text word : Text} {stated : TableConstraint}
    (found : readKind? kind text = some (word, stated)) (dotted : dottedCapitalI ∈ word) :
    UnknownKind.StandsIn text ⟨word⟩ := by
  simp only [readKind?, Option.bind_eq_bind, Option.bind_eq_some_iff] at found
  obtain ⟨rest, keyword, columns, _, result⟩ := found
  cases result
  obtain ⟨word, rfl, same⟩ := Text.afterKeyword?_eq_some_iff.mp keyword
  have length : word.length = kind.keyword.length := by
    simpa [Text.fold] using congrArg List.length same
  rw [List.take_left' length] at dotted ⊢
  exact .word (List.prefix_append word rest).isInfix same dotted

/-- A comment is refused only for its keyword. -/
theorem standsIn_of_read {text : Text} {fault : UnknownKind} (failed : read text = .error fault) :
    fault.StandsIn text := by
  refine UnknownKind.StandsIn.mono ?_ (Text.trim_within text)
  dsimp only [read] at failed
  split at failed
  · cases failed
  · next word stated found =>
      split at failed
      · next dotted =>
          cases failed
          have dottedMem := List.contains_iff_mem.mp dotted
          split at found
          · next isUnique =>
              cases found
              exact standsIn_of_readKind? isUnique dottedMem
          · exact standsIn_of_readKind? found dottedMem
      · cases failed

end TableConstraint

namespace BodyEntry

theorem cause_of_readConstraint {text : Text}
    (failed : readConstraint options text = .error error) :
    error.Cause options text := by
  unfold readConstraint at failed
  split at failed
  · cases failed
  · next reads =>
      obtain ⟨fault, refused, rfl⟩ := exists_of_mapError_eq_error failed
      exact .unknownKind (by simpa using reads) (TableConstraint.standsIn_of_read refused)

theorem cause_of_read {number : Int} {line : Text}
    (failed : read options number line = .error error) :
    error.Cause options line := by
  unfold read at failed
  split at failed
  · rcases error_of_bind_eq_error failed with refused | ⟨stated?, _, impossible⟩
    · exact (cause_of_readConstraint refused).mono (Comment.content_within line)
    · cases stated? <;> cases impossible
  · split at failed
    · rcases error_of_bind_eq_error failed with refused | ⟨_, _, impossible⟩
      · exact Column.cause_of_read refused
      · cases impossible
    · cases failed
      exact .malformed _

end BodyEntry

/-- What is wrong with a segment of a one-line body is wrong with the body. -/
theorem Body.cause_of_mem_segments {text segment : Text} (member : segment ∈ segments text)
    (cause : error.Cause options segment) : error.Cause options text := by
  by_contra without
  refine of_mem_attachComments (fun piece => ¬error.Cause options piece) ?_ ?_ member cause
  · intro first next firstClear nextClear joined
    exact joined.joined.elim firstClear nextClear
  · intro part partMem found
    exact without (found.mono (within_of_mem_parts partMem))

theorem Interface.cause_of_mem_segments {line : Text} {opening : Opening}
    (opens : opening? line = some opening) {segment : Text} (member : segment ∈ opening.segments)
    (cause : error.Cause options segment) : error.Cause options line := by
  obtain ⟨_, body, within, segments⟩ := exists_body_of_opening? opens
  rw [segments] at member
  exact (Body.cause_of_mem_segments member cause).mono within

/-! ## Documents -/

namespace Progress

/-- All comment lines that are still to be read stand in the text. -/
def Within (text : Text) (progress : Progress) : Prop :=
  ∀ comment ∈ progress.place.comments, comment <:+: text

variable {progress next : Progress} {number : Int} {line text : Text}

theorem within_of_step (step : Step options number line progress next) (inside : line <:+: text)
    (within : progress.Within text) : next.Within text := by
  cases step with
  | blank _ => exact List.forall_mem_nil _
  | comment _ =>
      intro comment member
      rcases List.mem_append.mp member with earlier | new
      · exact within comment earlier
      · rw [List.mem_singleton] at new
        rw [new]
        exact (Comment.content_within line).trans inside
  | oneLine _ _ _ _ => exact List.forall_mem_nil _
  | opens _ _ _ => exact within
  | closes _ _ => exact List.forall_mem_nil _
  | skips _ => exact within
  | entry _ _ _ => exact within

/-- What stops the reader at a line stands in the line or in a comment line before it. -/
theorem cause_of_stop {place : Place} (stop : Stop options number line place error)
    (inside : line <:+: text) (within : ∀ comment ∈ place.comments, comment <:+: text) :
    error.Cause options text := by
  cases stop with
  | content => exact .malformed _
  | header => exact .malformed _
  | segment opens member failed =>
      have cause := BodyEntry.cause_of_read failed
      exact (Interface.cause_of_mem_segments opens member cause).mono inside
  | entry failed =>
      exact (BodyEntry.cause_of_read failed).mono ((Text.trim_within line).trans inside)
  | comment member failed =>
      exact (BodyEntry.cause_of_readConstraint failed).mono (within _ member)

theorem cause_of_readLines {lines : List Text} (within : progress.Within text)
    (inside : ∀ line ∈ lines, line <:+: text)
    (failed : readLines options progress number lines = .error error) :
    error.Cause options text := by
  induction lines generalizing progress number with
  | nil => cases failed
  | cons line lines ih =>
      have lineInside := inside line (by simp)
      rcases error_of_bind_eq_error failed with refused | ⟨next, read, failed⟩
      · exact cause_of_stop (stop_of_readLine refused) lineInside within
      · apply ih (within_of_step (step_of_readLine read) lineInside within) ?_ failed
        exact fun other member => inside other (List.mem_cons_of_mem line member)

end Progress

/-- An error that is not about a malformed line has its cause in the text: a run of digits
that is too long, or, when constraints are read, a keyword with a dotted capital I. -/
theorem Schema.cause_of_error {text : Text} (failed : Schema.read options text = .error error) :
    error.Cause options text := by
  rcases Schema.stopped_or_open_of_read failed with stopped | ⟨_, _, table, _, rfl⟩
  · have start : Progress.Within text {} := List.forall_mem_nil _
    have inside : ∀ line ∈ text.lines, line <:+: text :=
      fun line member => (Text.cut_lines text).within member
    exact Progress.cause_of_readLines start inside stopped
  · exact .malformed _

end

section Dotted

/-- A document with a comment that states an index, but for the dot of its first letter. -/
def dottedText : Text := "// \u0130NDEX(a)\ninterface T \x7b\x7d".toList

/-- The error that the reading of the document ends with. -/
def dottedError : ReadError := .unknownKind ⟨"\u0130NDEX".toList⟩

theorem read_dottedText : Schema.read {} dottedText = .error dottedError := by decide +kernel

end Dotted

theorem Schema.cause_of_error_dotted :
    Schema.read {} dottedText = .error dottedError ∧ dottedError.Cause {} dottedText :=
  ⟨read_dottedText, Schema.cause_of_error read_dottedText⟩

/-- Reading can end without a schema and without a malformed line. -/
theorem Schema.read_refuses_keyword :
    ¬∀ (options : ReadOptions) (text : Text), (∃ schema, Schema.read options text = .ok schema) ∨
      ∃ error, Schema.read options text = .error (.malformed error) := by
  intro always
  rcases always {} dottedText with ⟨schema, found⟩ | ⟨error, failed⟩
  · rw [read_dottedText] at found
    cases found
  · rw [read_dottedText] at failed
    cases failed

end SchemaNotation
