import SchemaNotation.Column.Reader
import SchemaNotation.Proofs.CommentStart

/-!
# The lines of columns

The line of a column is a definition and the comment behind it.  A definition is an
identifier, a question mark if the column is nullable, a colon and the text of a type, with
blanks before and behind the colon, and behind the type blanks and at most one semicolon.
These are exactly the lines that are read as columns.
-/

namespace SchemaNotation.Column

/-! ## The semicolon -/

theorem dropSemicolon_concat (text : Text) :
    dropSemicolon (text ++ [';']) = Text.trimRight text := by
  have tail : ";".toList = [';'] := rfl
  rw [dropSemicolon, tail, Text.before?_append]

theorem dropSemicolon_of_last {text : Text} (last : text.getLast? ≠ some ';') :
    dropSemicolon text = text := by
  unfold dropSemicolon
  split
  · next rest found =>
      have shape : text = rest ++ [';'] := Text.eq_append_of_before? found
      exact (last (by rw [shape, List.getLast?_concat])).elim
  · rfl

/-- What is cut off behind a definition: blanks and a semicolon, or nothing. -/
theorem dropSemicolon_split (text : Text) :
    ∃ blanks ending, text = dropSemicolon text ++ (blanks ++ ending) ∧ Text.Blank blanks ∧
      (ending = [] ∨ ending = [';']) := by
  by_cases last : text.getLast? = some ';'
  · have shape : text = text.dropLast ++ [';'] := (List.dropLast_append_getLast? ';' last).symm
    obtain ⟨blanks, blank, equal⟩ := Text.trimRight_split text.dropLast
    refine ⟨blanks, [';'], ?_, blank, Or.inr rfl⟩
    rw [shape, dropSemicolon_concat, ← List.append_assoc, ← equal]
  · exact ⟨[], [], by simp [dropSemicolon_of_last last], List.forall_mem_nil _, Or.inl rfl⟩

theorem dropSemicolon_isPrefix (text : Text) : dropSemicolon text <+: text := by
  obtain ⟨blanks, ending, whole, _, _⟩ := dropSemicolon_split text
  exact ⟨blanks ++ ending, whole.symm⟩

/-! ## The name and the colon -/

/-- The mark of a nullable column, blanks and a colon do not continue a name. -/
theorem stops_behind_name {isMember : Char → Bool} (mark : isMember '?' = false)
    (colon : isMember ':' = false) (clear : ∀ {c}, isBlank c = true → isMember c = false)
    (nullable : Bool) {blanks : Text} (blank : Text.Blank blanks) (type : Text) :
    Text.Stops isMember ((if nullable then ['?'] else []) ++ (blanks ++ ':' :: type)) := by
  cases nullable with
  | true => exact Text.stops_cons.mpr mark
  | false =>
      cases blanks with
      | nil => exact Text.stops_cons.mpr colon
      | cons c blanks => exact Text.stops_cons.mpr (clear (blank c (by simp)))

theorem stops_backtick_behind_name (nullable : Bool) {blanks : Text} (blank : Text.Blank blanks)
    (type : Text) :
    Text.Stops (· == backtick) ((if nullable then ['?'] else []) ++ (blanks ++ ':' :: type)) := by
  apply stops_behind_name (by decide) (by decide) _ nullable blank
  intro c blank
  rw [beq_eq_false_iff_ne]
  rintro rfl
  exact absurd blank (by decide)

variable {line definition name typeText : Text} {nullable : Bool}

/-- Behind the name stand the mark of a nullable column, blanks and the colon. -/
theorem exists_of_readDefinition
    (read : readDefinition line definition = .ok (name, nullable, typeText)) :
    ∃ tail type,
      Identifier.read? definition = some (name, (if nullable then ['?'] else []) ++ tail) ∧
        Text.trimLeft tail = ':' :: type ∧ typeText = Text.trim type := by
  unfold readDefinition at read
  split at read
  · cases read
  · next found rest named =>
      dsimp only at read
      split at read
      · next type colon =>
          simp only [Except.ok.injEq, Prod.mk.injEq] at read
          obtain ⟨rfl, marked, rfl⟩ := read
          split at colon
          · cases marked
            exact ⟨_, type, named, colon, rfl⟩
          · split at marked
            · next unmarked => exact (unmarked _ rfl).elim
            · cases marked
              exact ⟨_, type, named, colon, rfl⟩
      · cases read

theorem readDefinition_of_named (line : Text) {tail type : Text}
    (named : Identifier.read? definition = some (name, (if nullable then ['?'] else []) ++ tail))
    (colon : Text.trimLeft tail = ':' :: type) :
    readDefinition line definition = .ok (name, nullable, Text.trim type) := by
  rw [readDefinition, named]
  cases nullable with
  | true => simp only [if_true, List.singleton_append, colon]
  | false =>
      cases tail with
      | nil => cases colon
      | cons c tail =>
          have unmarked : c ≠ '?' := by
            rintro rfl
            rw [Text.trimLeft_of_stops (Text.stops_cons.mpr (by decide))] at colon
            cases colon
          simp [unmarked, colon]

/-- A definition is taken apart at the end of its name and at its colon. -/
theorem readDefinition_eq_ok_iff :
    readDefinition line definition = .ok (name, nullable, typeText) ↔
      ∃ identifier blanks type, Identifier.Denotes identifier name ∧ Text.Blank blanks ∧
        definition = identifier ++ ((if nullable then ['?'] else []) ++ (blanks ++ ':' :: type)) ∧
        typeText = Text.trim type := by
  constructor
  · intro read
    obtain ⟨tail, type, named, colon, equal⟩ := exists_of_readDefinition read
    obtain ⟨blanks, blank, separated⟩ := Text.trimLeft_split tail
    rw [colon] at separated
    rw [separated] at named
    rcases Identifier.denotes_of_read? named with ⟨identifier, denotes, shape⟩ | starts
    · exact ⟨identifier, blanks, type, denotes, blank, shape, equal⟩
    · have stops := stops_backtick_behind_name nullable blank type
      exact absurd (stops backtick starts) (by decide)
  · rintro ⟨identifier, blanks, type, denotes, blank, rfl, rfl⟩
    have stops : Text.Stops Identifier.isContinue _ :=
      stops_behind_name (by decide) (by decide) isContinue_of_isBlank nullable blank type
    apply readDefinition_of_named line
      (denotes.read? (stops_backtick_behind_name nullable blank type) stops)
    rw [Text.trimLeft_blank_append blank]
    exact Text.trimLeft_of_stops (Text.stops_cons.mpr (by decide))

/-! ## Definitions -/

/-- The text defines a column of the name, the nullability and the type. -/
inductive Defines : Text → Text → Bool → ColumnType → Prop where
  | intro {identifier name before behind typeText blanks ending : Text} {type : ColumnType}
      (nullable : Bool) :
      Identifier.Denotes identifier name → Text.Blank before → Text.Blank behind →
      ColumnType.Denotes typeText type → Text.Blank blanks → ending = [] ∨ ending = [';'] →
      Defines (identifier ++ ((if nullable then ['?'] else []) ++
          (before ++ ':' :: (behind ++ (typeText ++ (blanks ++ ending)))))) name nullable type

variable {text : Text} {type : ColumnType}

/-- No more than blanks stay behind the type when a semicolon is cut off. -/
theorem dropSemicolon_behind_type {typeText blanks ending : Text}
    (typed : ColumnType.Denotes typeText type) (blank : Text.Blank blanks)
    (ends : ending = [] ∨ ending = [';']) (front : Text) :
    ∃ rest, Text.Blank rest ∧
      dropSemicolon (front ++ (typeText ++ (blanks ++ ending))) = front ++ (typeText ++ rest) := by
  rcases ends with rfl | rfl
  · refine ⟨blanks, blank, ?_⟩
    rw [List.append_nil]
    apply dropSemicolon_of_last
    rw [List.getLast?_append_of_ne_nil _ (by simp [typed.ne_nil])]
    by_cases filled : blanks = []
    · rw [filled, List.append_nil]
      exact typed.last
    · rw [List.getLast?_append_of_ne_nil _ filled]
      exact fun last => Text.not_mem_of_blank (by decide) blank (List.mem_of_getLast? last)
  · refine ⟨[], List.forall_mem_nil _, ?_⟩
    have regroup : front ++ (typeText ++ (blanks ++ [';'])) =
        front ++ typeText ++ blanks ++ [';'] := by
      simp
    rw [regroup, dropSemicolon_concat, Text.trimRight_append_blank blank, List.append_nil]
    apply Text.trimRight_of_last
    rw [List.getLast?_append_of_ne_nil _ typed.ne_nil]
    exact typed.trimmed.last

/-- A text defines what is read from it without its semicolon. -/
theorem defines_iff (line : Text) :
    Defines text name nullable type ↔
      ∃ typeText, readDefinition line (dropSemicolon text) = .ok (name, nullable, typeText) ∧
        ColumnType.read typeText = .ok (some type) := by
  constructor
  · rintro ⟨nullable, identified, beforeBlank, behindBlank, typed, blank, ends⟩
    next identifier before behind typeText blanks ending =>
      obtain ⟨rest, restBlank, dropped⟩ := dropSemicolon_behind_type typed blank ends
        (identifier ++ ((if nullable then ['?'] else []) ++ (before ++ ':' :: behind)))
      refine ⟨typeText, readDefinition_eq_ok_iff.mpr
        ⟨identifier, before, behind ++ (typeText ++ rest), identified, beforeBlank, ?_, ?_⟩, ?_⟩
      · simpa using dropped
      · rw [← List.append_assoc, Text.trim_between_blanks behindBlank restBlank typed.trimmed]
      · rw [ColumnType.read_eq_ok_iff, typed.trimmed.trim_eq]
        exact typed
  · rintro ⟨typeText, read, typed⟩
    obtain ⟨identifier, before, tail, identified, beforeBlank, shape, rfl⟩ :=
      readDefinition_eq_ok_iff.mp read
    obtain ⟨blanks, ending, whole, blank, ends⟩ := dropSemicolon_split text
    obtain ⟨behind, after, behindBlank, afterBlank, padded⟩ := Text.trim_split tail
    rw [ColumnType.read_eq_ok_iff, Text.trim_trim] at typed
    have regroup : text = identifier ++ ((if nullable then ['?'] else []) ++
        (before ++ ':' :: (behind ++ (Text.trim tail ++ ((after ++ blanks) ++ ending))))) := by
      rw [whole, shape]
      conv_lhs => rw [padded]
      simp
    rw [regroup]
    exact .intro nullable identified beforeBlank behindBlank typed
      (List.forall_mem_append.mpr ⟨afterBlank, blank⟩) ends

/-- What stands between the name and the type. -/
theorem not_mem_between {c : Char} (solid : isBlank c = false) (other : c ∉ "?:".toList)
    (nullable : Bool) {before behind : Text} (beforeBlank : Text.Blank before)
    (behindBlank : Text.Blank behind) :
    c ∉ (if nullable then ['?'] else []) ++ (before ++ ':' :: behind) := by
  have outside := Text.not_mem_of_blank solid beforeBlank
  have inside := Text.not_mem_of_blank solid behindBlank
  obtain ⟨mark, colon⟩ : c ≠ '?' ∧ c ≠ ':' := by simpa using other
  cases nullable <;> simp [mark, colon, outside, inside]

/-- What stands behind the type. -/
theorem not_mem_ending {c : Char} (solid : isBlank c = false) (other : c ≠ ';')
    {blanks ending : Text} (blank : Text.Blank blanks) (ends : ending = [] ∨ ending = [';']) :
    c ∉ blanks ++ ending := by
  have outside := Text.not_mem_of_blank solid blank
  rcases ends with rfl | rfl <;> simp [outside, other]

/-- No comment starts in a definition when none does in its name and its type, and the
definition ends inside a literal as its name does. -/
theorem Defines.quiet (defines : Defines text name nullable type) :
    (Comment.Quiet false text ↔
        Comment.Quiet false name ∧ type.Quiet (Comment.endsInLiteral false name)) ∧
      Comment.endsInLiteral false text = Comment.endsInLiteral false name := by
  obtain ⟨nullable, identified, beforeBlank, behindBlank, typed, blank, ends⟩ := defines
  next identifier before behind typeText blanks ending =>
    obtain ⟨nameIff, nameEnds⟩ := Comment.quiet_identifier identified false
    obtain ⟨typeIff, typeEnds⟩ := typed.quiet (Comment.endsInLiteral false name)
    have regroup : identifier ++ ((if nullable then ['?'] else []) ++
        (before ++ ':' :: (behind ++ (typeText ++ (blanks ++ ending))))) =
        identifier ++ (((if nullable then ['?'] else []) ++ (before ++ ':' :: behind)) ++
          (typeText ++ (blanks ++ ending))) := by
      simp
    have apart : ∀ {c}, isBlank c = false → c ∉ "?:".toList →
        c ∉ (if nullable then ['?'] else []) ++ (before ++ ':' :: behind) :=
      fun solid other => not_mem_between solid other nullable beforeBlank behindBlank
    have noSlash := not_mem_ending (by decide : isBlank '/' = false) (by decide) blank ends
    have noApostrophe := not_mem_ending (by decide : isBlank apostrophe = false) (by decide) blank ends
    constructor
    · rw [regroup, Comment.quiet_parted_iff (by simp) (apart (by decide) (by decide))
        (apart (by decide) (by decide)), nameIff, nameEnds, Comment.quiet_append_plain noSlash,
        typeIff]
    · rw [regroup, Comment.endsInLiteral_append, nameEnds,
        Comment.endsInLiteral_middle (apart (by decide) (by decide)) noApostrophe, typeEnds]

theorem Defines.valid (defines : Defines text name nullable type) : type.Valid := by
  obtain ⟨_, _, _, _, typed, _, _⟩ := defines
  exact typed.valid

/-- The parts of a definition are cut out of its text. -/
theorem Defines.subset (defines : Defines text name nullable type) :
    name ⊆ text ∧ ∀ string ∈ type.strings, string ⊆ text := by
  obtain ⟨nullable, identified, _, _, typed, _, _⟩ := defines
  constructor
  · exact List.Subset.trans identified.subset (List.subset_append_left _ _)
  · intro string member c inside
    simp [typed.strings_subset string member inside]

/-! ## Lines -/

/-- The comment of a column, from the text behind the slashes.  A text of blanks is none. -/
def commentOf (rest : Option Text) : Option Text :=
  (rest.map Text.trim).filter fun comment => !comment.isEmpty

theorem commentOf_eq_some_iff {rest : Option Text} {comment : Text} :
    commentOf rest = some comment ↔
      comment ≠ [] ∧ ∃ text, rest = some text ∧ comment = Text.trim text := by
  rw [commentOf, Option.filter_eq_some_iff, Option.map_eq_some_iff]
  simp only [Bool.not_eq_true', List.isEmpty_eq_false_iff, and_comm, eq_comm (a := comment)]

/-- A column has no comment when nothing but blanks stands behind the slashes. -/
theorem blank_of_commentOf {text : Text} (none : commentOf (some text) = none) :
    Text.Blank text := by
  have empty : Text.trim text = [] := by
    by_contra filled
    have found : commentOf (some text) = some (Text.trim text) :=
      commentOf_eq_some_iff.mpr ⟨filled, text, rfl, rfl⟩
    rw [none] at found
    cases found
  obtain ⟨before, after, beforeBlank, afterBlank, shape⟩ := Text.trim_split text
  rw [shape, empty, List.nil_append]
  exact List.forall_mem_append.mpr ⟨beforeBlank, afterBlank⟩

/-- A comment that a space keeps apart from its slashes. -/
theorem commentOf_spaced {comment : Option Text}
    (kept : ∀ text, comment = some text → text ≠ [] ∧ Text.Trimmed text) :
    commentOf (comment.map (' ' :: ·)) = comment := by
  cases comment with
  | none => rfl
  | some text =>
      obtain ⟨filled, trimmed⟩ := kept text rfl
      exact commentOf_eq_some_iff.mpr
        ⟨filled, ' ' :: text, rfl, (Text.trim_blank_append (Text.blank_replicate 1) trimmed).symm⟩

/-- The definition and the comment of a line, where the line is cut. -/
theorem parts_of_divides {line definition : Text} {rest : Option Text} (trimmed : Text.Trimmed line)
    (divides : Comment.Divides line definition rest) :
    parts line = (dropSemicolon (Text.trim definition), commentOf rest) := by
  rw [parts, Comment.split_eq_iff.mpr divides]
  cases divides with
  | whole =>
      rw [trimmed.trim_eq]
      rfl
  | @comment definition rest =>
      cases empty : (Text.trim rest).isEmpty <;> simp [commentOf, Option.filter, empty]

variable {options : ReadOptions} {number : Int} {source definition : Text} {rest : Option Text}
  {column : Column}

/-- A line is read as a column when its parts are. -/
theorem read_eq_ok_iff (divides : Comment.Divides (Text.trim source) definition rest) :
    read options number source = .ok column ↔
      Defines (Text.trim definition) column.name column.nullable column.type ∧
        column.comment = commentOf rest ∧
        column.constraints = (if options.skipConstraints then []
          else Constraint.readAll (column.comment.getD [])) ∧
        column.annotations = (if options.skipAnnotations then []
          else Tag.readAll (column.comment.getD [])) := by
  dsimp only [read]
  rw [parts_of_divides (Text.trimmed_trim source) divides, defines_iff (Text.trim source)]
  constructor
  · intro found
    obtain ⟨⟨name, nullable, typeText⟩, defined, found⟩ := exists_of_bind_eq_ok found
    obtain ⟨type?, typed, found⟩ := exists_of_bind_eq_ok found
    cases type? with
    | none => cases found
    | some type =>
        cases found
        exact ⟨⟨typeText, eq_ok_of_mapError_eq_ok defined, eq_ok_of_mapError_eq_ok typed⟩, rfl, rfl,
          rfl⟩
  · rintro ⟨⟨typeText, defined, typed⟩, commented, constraints, annotations⟩
    obtain ⟨name, type, nullable, columnConstraints, columnAnnotations, comment⟩ := column
    dsimp only at defined typed commented constraints annotations ⊢
    rw [defined]
    simp only [Except.mapError, bind, Except.bind, typed]
    rw [constraints, annotations, commented]
    rfl

/-- A line is read as a column exactly when it is cut into the definition of that column and a
comment, and the constraints and annotations of the column are those its comment states. -/
theorem reads_exactly_lines (options : ReadOptions) (number : Int) (source : Text)
    (column : Column) :
    read options number source = .ok column ↔
      ∃ definition rest, Comment.Divides (Text.trim source) definition rest ∧
        Defines (Text.trim definition) column.name column.nullable column.type ∧
        column.comment = commentOf rest ∧
        column.constraints = (if options.skipConstraints then []
          else Constraint.readAll (column.comment.getD [])) ∧
        column.annotations = (if options.skipAnnotations then []
          else Tag.readAll (column.comment.getD [])) := by
  constructor
  · intro found
    obtain ⟨definition, rest, divides⟩ := Comment.exists_divides (Text.trim source)
    exact ⟨definition, rest, divides, (read_eq_ok_iff divides).mp found⟩
  · rintro ⟨definition, rest, divides, stated⟩
    exact (read_eq_ok_iff divides).mpr stated

end SchemaNotation.Column
