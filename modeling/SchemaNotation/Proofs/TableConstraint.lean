import SchemaNotation.Proofs.Identifier
import SchemaNotation.Proofs.Scan
import SchemaNotation.TableConstraint

/-!
# Table constraints read back

A written table constraint is never refused.  It is read back exactly when it has columns
and every name stands apart from the others in the list; a constraint without columns is
read as free text.
-/

namespace SchemaNotation

deriving instance ReflBEq, LawfulBEq for TableConstraint.Kind

deriving instance ReflBEq, LawfulBEq for TableConstraint

namespace TableConstraint

/-! ## Column lists -/

/-- A name that stands apart from the others in a column list. -/
structure Listed (name : Text) : Prop where
  nonempty : name ≠ []
  noComma : ',' ∉ name
  noParenthesis : ')' ∉ name

instance (name : Text) : Decidable (Listed name) :=
  decidable_of_iff (name ≠ [] ∧ ',' ∉ name ∧ ')' ∉ name)
    ⟨fun ⟨nonempty, noComma, noParenthesis⟩ => ⟨nonempty, noComma, noParenthesis⟩,
      fun ⟨nonempty, noComma, noParenthesis⟩ => ⟨nonempty, noComma, noParenthesis⟩⟩

/-- The name that one piece of a column list states. -/
def readPiece (piece : Text) : Text :=
  let name := Text.trim piece
  if 2 ≤ name.length ∧ name.head? = some backtick ∧ name.getLast? = some backtick then
    Identifier.collapse (name.drop 1).dropLast
  else name

theorem readColumns_eq (text : Text) :
    readColumns text = ((Text.splitOn ',' text).map readPiece).filter fun name => !name.isEmpty :=
  rfl

theorem readPiece_subset (piece : Text) : readPiece piece ⊆ piece := by
  unfold readPiece
  dsimp only
  split
  · have inner := List.Subset.trans (List.dropLast_subset ((Text.trim piece).drop 1))
      (List.drop_subset 1 _)
    exact List.Subset.trans (List.Subset.trans (Identifier.collapse_subset _) inner)
      (Text.trim_subset piece)
  · exact Text.trim_subset piece

theorem readPiece_blank_append {blanks : Text} (blank : Text.Blank blanks) (piece : Text) :
    readPiece (blanks ++ piece) = readPiece piece := by
  simp only [readPiece, Text.trim_of_blank_append blank]

theorem head?_ne_backtick_of_isPlain {name : Text} (plain : Identifier.isPlain name = true) :
    name.head? ≠ some backtick := by
  intro starts
  have inside := Identifier.isContinue_of_isPlain plain backtick (List.mem_of_head? starts)
  exact absurd inside (by decide)

/-- A written name is a piece that states the name, unless the name is written bare with a
line feed at its end, which trimming takes away. -/
theorem readPiece_render_eq_self_iff {name : Text} :
    readPiece (Identifier.render name) = name ↔ Identifier.Unambiguous name := by
  constructor
  · rintro same stem plain rfl
    have bare : Identifier.render (stem ++ ['\n']) = stem ++ ['\n'] := by
      simp [Identifier.render, Identifier.isBare, plain]
    have feed : Text.Blank ['\n'] := by simp [Text.Blank, isBlank]
    have trimmed : Text.trim (stem ++ ['\n']) = stem :=
      Text.trim_append_blank feed (Identifier.trimmed_of_isPlain plain)
    rw [bare, readPiece, trimmed,
      if_neg fun quoted => head?_ne_backtick_of_isPlain plain quoted.2.1] at same
    simp at same
  · intro unambiguous
    rw [readPiece, unambiguous.trimmed_render.trim_eq]
    rcases unambiguous.render_cases with ⟨plain, written⟩ | ⟨_, written⟩
    · rw [written, if_neg fun quoted => head?_ne_backtick_of_isPlain plain quoted.2.1]
    · rw [written, Identifier.quote, if_pos]
      · simp [Identifier.collapse_double]
      · exact ⟨by simp, rfl, List.getLast?_concat⟩

/-- A list of written names is cut between the names when no name has a comma in it. -/
theorem map_readPiece_intercalate {names : List Text} (filled : names ≠ [])
    (noComma : ∀ name ∈ names, ',' ∉ name) {blanks : Text} (blank : Text.Blank blanks) :
    (Text.splitOn ',' (blanks ++
        List.intercalate ", ".toList (names.map Identifier.render))).map readPiece =
      names.map fun name => readPiece (Identifier.render name) := by
  induction names generalizing blanks with
  | nil => exact (filled rfl).elim
  | cons name names ih =>
      have apart : ',' ∉ blanks ++ Identifier.render name := by
        rw [List.mem_append, not_or]
        refine ⟨Text.not_mem_of_blank (by decide) blank, fun member => ?_⟩
        rcases List.mem_cons.mp (Identifier.render_subset name member) with mark | member
        · exact absurd mark (by decide)
        · exact noComma name (by simp) member
      cases names with
      | nil =>
          rw [List.map_singleton, List.intercalate_singleton, Text.splitOn_eq,
            List.splitOn_eq_singleton apart, List.map_singleton, readPiece_blank_append blank,
            List.map_singleton]
      | cons next names =>
          have rest := ih (by simp) (fun other member => noComma other (List.mem_cons_of_mem _ member))
            (Text.blank_replicate 1)
          rw [List.map_cons, List.map_cons, List.intercalate_cons_cons, ← List.map_cons,
            List.append_assoc, ← List.append_assoc,
            show ", ".toList = ',' :: List.replicate 1 ' ' from rfl, List.cons_append,
            Text.splitOn_eq, List.splitOn_append_cons_self_of_not_mem apart, List.map_cons,
            readPiece_blank_append blank, List.map_cons, ← Text.splitOn_eq]
          exact congrArg (readPiece (Identifier.render name) :: ·) rest

/-- What is left of a list after a change of its entries is the whole list exactly when no
entry is changed and none is dropped. -/
theorem filter_map_eq_self_iff {α : Type} {keep : α → Bool} {change : α → α} {entries : List α} :
    (entries.map change).filter keep = entries ↔
      ∀ entry ∈ entries, keep entry = true ∧ change entry = entry := by
  constructor
  · intro same
    have kept : ∀ entry ∈ entries.map change, keep entry = true := by
      rw [← List.length_filter_eq_length_iff, same, List.length_map]
    rw [List.filter_eq_self.mpr kept] at same
    rw [same] at kept
    have unchanged := List.map_inj_left.mp (same.trans (List.map_id entries).symm)
    exact fun entry member => ⟨kept entry member, unchanged entry member⟩
  · intro all
    have unchanged : entries.map change = entries := by
      conv_rhs => rw [← List.map_id entries]
      exact List.map_inj_left.mpr fun entry member => (all entry member).2
    rw [unchanged, List.filter_eq_self]
    exact fun entry member => (all entry member).1

/-- A list of names without commas is read back exactly when each of its names is a name
that can stand alone. -/
theorem readColumns_eq_self_iff {names : List Text} (filled : names ≠ [])
    (noComma : ∀ name ∈ names, ',' ∉ name) :
    readColumns (List.intercalate ", ".toList (names.map Identifier.render)) = names ↔
      ∀ name ∈ names, name ≠ [] ∧ Identifier.Unambiguous name := by
  have pieces := map_readPiece_intercalate filled noComma (Text.blank_replicate 0)
  rw [List.replicate_zero, List.nil_append] at pieces
  rw [readColumns_eq, pieces, filter_map_eq_self_iff]
  simp only [readPiece_render_eq_self_iff, Bool.not_eq_true', List.isEmpty_eq_false_iff]

theorem listed_of_mem_readColumns {text name : Text} (noParenthesis : ')' ∉ text)
    (member : name ∈ readColumns text) : Listed name ∧ name ⊆ text := by
  rw [readColumns_eq, List.mem_filter] at member
  obtain ⟨member, nonempty⟩ := member
  obtain ⟨piece, pieceMem, rfl⟩ := List.mem_map.mp member
  obtain ⟨noComma, subset⟩ := Text.mem_splitOn pieceMem
  have within := List.Subset.trans (readPiece_subset piece) subset
  refine ⟨⟨by simpa using nonempty, ?_, ?_⟩, within⟩
  · exact fun inside => noComma (readPiece_subset piece inside)
  · exact fun inside => noParenthesis (within inside)

/-! ## Whole constraints -/

theorem readList?_parentheses {body : Text} (filled : body ≠ []) (clear : ')' ∉ body) :
    readList? ('(' :: body ++ [')']) = some (readColumns body) := by
  have opened : Text.after? "(".toList (Text.trimLeft ('(' :: body ++ [')'])) =
      some (body ++ [')']) := by
    rw [List.cons_append, Text.trimLeft_of_stops (Text.stops_cons.mpr (by decide))]
    exact Text.after?_append "(".toList (body ++ [')'])
  rw [readList?, opened]
  simp only [Option.bind_eq_bind, Option.bind_some, Text.upTo?_append filled clear []]
  rfl

/-- The names in a column list that was read. -/
theorem listed_of_readList? {text : Text} {columns : List Text}
    (found : readList? text = some columns) : ∀ name ∈ columns, Listed name ∧ name ⊆ text := by
  simp only [readList?, Option.bind_eq_bind, Option.bind_eq_some_iff] at found
  obtain ⟨rest, opened, ⟨body, tail⟩, closed, found⟩ := found
  obtain ⟨equal, _, clear⟩ := Text.eq_append_of_upTo? closed
  split at found
  · next body' same =>
      cases same
      cases found
      intro name member
      obtain ⟨listed, subset⟩ := listed_of_mem_readColumns clear member
      refine ⟨listed, ?_⟩
      have within := Text.eq_append_of_after? opened
      intro c inside
      apply (Text.trimLeft_suffix text).subset
      rw [within, equal]
      simp [subset inside]
  · cases found

theorem readKind?_keyword (kind : Kind) (rest : Text) :
    readKind? kind (kind.keyword ++ rest) =
      (readList? rest).map fun columns => (kind.keyword, { kind, columns }) := by
  simp only [readKind?, Text.afterKeyword?_append, List.take_left, Option.bind_eq_bind,
    Option.bind_some]
  cases readList? rest <;> rfl

theorem readKind?_index_unique (rest : Text) :
    readKind? .index (Kind.unique.keyword ++ rest) = none :=
  rfl

theorem readKind?_unique_index (rest : Text) :
    readKind? .unique (Kind.index.keyword ++ rest) = none :=
  rfl

theorem dottedCapitalI_not_mem_keyword (kind : Kind) : dottedCapitalI ∉ kind.keyword := by
  cases kind <;> decide

/-- A keyword decides what is read: the constraint that the list behind it states, or
nothing.  It never fails. -/
theorem read_keyword (kind : Kind) {rest : Text} (trimmed : Text.Trimmed (kind.keyword ++ rest)) :
    read (kind.keyword ++ rest) = .ok ((readList? rest).map fun columns => { kind, columns }) := by
  have known : kind.keyword.contains dottedCapitalI = false := by
    rw [← Bool.not_eq_true, List.contains_iff_mem]
    exact dottedCapitalI_not_mem_keyword kind
  rw [read, trimmed.trim_eq]
  cases kind with
  | unique =>
      rw [readKind?_keyword, readKind?_index_unique]
      cases readList? rest with
      | none => rfl
      | some columns =>
          simp only [Option.map_some, known]
          rfl
  | index =>
      rw [readKind?_unique_index, readKind?_keyword]
      cases readList? rest with
      | none => rfl
      | some columns =>
          simp only [Option.map_some, known]
          rfl

/-- An annotation is no constraint. -/
theorem read_at {text : Text} (trimmed : Text.Trimmed ('@' :: text)) :
    read ('@' :: text) = .ok none := by
  rw [read, trimmed.trim_eq]
  rfl

variable {constraint : TableConstraint}

theorem render_eq (constraint : TableConstraint) :
    constraint.render = constraint.kind.keyword ++ ('(' ::
      List.intercalate ", ".toList (constraint.columns.map Identifier.render) ++ [')']) :=
  List.append_assoc ..

theorem trimmed_render (constraint : TableConstraint) : Text.Trimmed constraint.render := by
  constructor
  · cases shape : constraint.kind with
    | unique =>
        rw [render_eq, shape]
        exact Text.stops_cons.mpr (by decide)
    | index =>
        rw [render_eq, shape]
        exact Text.stops_cons.mpr (by decide)
  · intro c found
    rw [render, List.getLast?_concat] at found
    cases found
    decide

theorem render_ne_nil (constraint : TableConstraint) : constraint.render ≠ [] := by
  rw [render]
  simp

/-- The characters of a written constraint. -/
theorem mem_render {c : Char} (member : c ∈ constraint.render) :
    c ∈ "UNIQUEINDEX(, )`".toList ∨ ∃ name ∈ constraint.columns, c ∈ name := by
  have keyword : constraint.kind.keyword ⊆ "UNIQUEINDEX(, )`".toList := by
    cases constraint.kind <;> decide
  have signs : "(, )`".toList ⊆ "UNIQUEINDEX(, )`".toList := by decide
  rw [render_eq, List.mem_append, List.cons_append, List.mem_cons, List.mem_append,
    List.mem_singleton] at member
  rcases member with inKeyword | rfl | inList | rfl
  · exact Or.inl (keyword inKeyword)
  · exact Or.inl (signs (by decide))
  · rcases Text.mem_intercalate inList with between | ⟨written, writtenMem, inside⟩
    · have comma : ", ".toList ⊆ "(, )`".toList := by decide
      exact Or.inl (signs (comma between))
    · obtain ⟨name, nameMem, rfl⟩ := List.mem_map.mp writtenMem
      rcases List.mem_cons.mp (Identifier.render_subset name inside) with rfl | inside
      · exact Or.inl (signs (by decide))
      · exact Or.inr ⟨name, nameMem, inside⟩
  · exact Or.inl (signs (by decide))

theorem lineFree_render (free : ∀ name ∈ constraint.columns, Text.LineFree name) :
    Text.LineFree constraint.render := by
  have signs : Text.LineFree "UNIQUEINDEX(, )`".toList := by decide
  constructor
  · intro member
    rcases mem_render member with sign | ⟨name, nameMem, inside⟩
    · exact signs.1 sign
    · exact (free name nameMem).1 inside
  · intro member
    rcases mem_render member with sign | ⟨name, nameMem, inside⟩
    · exact signs.2 sign
    · exact (free name nameMem).2 inside

theorem read_render_ok (constraint : TableConstraint) :
    ∃ stated, read constraint.render = .ok stated := by
  have trimmed := trimmed_render constraint
  rw [render_eq] at trimmed ⊢
  exact ⟨_, read_keyword constraint.kind trimmed⟩

/-- A written constraint states the list between its parentheses, when no name in it closes
them. -/
theorem read_render_eq (filled : constraint.columns ≠ [])
    (noParenthesis : ∀ name ∈ constraint.columns, ')' ∉ name) :
    read constraint.render = .ok (some { constraint with
      columns := readColumns (List.intercalate ", ".toList
        (constraint.columns.map Identifier.render)) }) := by
  have trimmed := trimmed_render constraint
  have written : List.intercalate ", ".toList (constraint.columns.map Identifier.render) ≠ [] := by
    obtain ⟨name, names, shape⟩ := List.exists_cons_of_ne_nil filled
    obtain ⟨c, more, spelled⟩ := List.exists_cons_of_ne_nil (Identifier.render_ne_nil name)
    cases names with
    | nil => simp [shape, spelled]
    | cons next names => simp [shape, spelled, List.intercalate_cons_cons]
  have clear : ')' ∉ List.intercalate ", ".toList (constraint.columns.map Identifier.render) := by
    intro member
    rcases Text.mem_intercalate member with between | ⟨piece, pieceMem, inside⟩
    · exact absurd between (by decide)
    · obtain ⟨name, nameMem, rfl⟩ := List.mem_map.mp pieceMem
      rcases List.mem_cons.mp (Identifier.render_subset name inside) with mark | inside
      · exact absurd mark (by decide)
      · exact noParenthesis name nameMem inside
  rw [render_eq] at trimmed ⊢
  rw [read_keyword constraint.kind trimmed, readList?_parentheses written clear]
  rfl

/-- A written constraint states the constraint it was written for. -/
theorem read_render (filled : constraint.columns ≠ [])
    (listed : ∀ name ∈ constraint.columns, Listed name ∧ Identifier.Unambiguous name) :
    read constraint.render = .ok (some constraint) := by
  have columns := (readColumns_eq_self_iff filled fun name member => (listed name member).1.noComma).mpr
    fun name member => ⟨(listed name member).1.nonempty, (listed name member).2⟩
  rw [read_render_eq filled fun name member => (listed name member).1.noParenthesis, columns]

/-- A constraint without columns is written as a text that states nothing. -/
theorem read_render_of_nil (empty : constraint.columns = []) : read constraint.render = .ok none := by
  have trimmed := trimmed_render constraint
  rw [render_eq] at trimmed ⊢
  rw [read_keyword constraint.kind trimmed, empty]
  rfl

theorem listed_of_readKind? {kind : Kind} {text word : Text}
    (found : readKind? kind text = some (word, constraint)) :
    ∀ name ∈ constraint.columns, Listed name ∧ name ⊆ text := by
  simp only [readKind?, Option.bind_eq_bind, Option.bind_eq_some_iff] at found
  obtain ⟨rest, keyword, columns, list, result⟩ := found
  cases result
  intro name member
  obtain ⟨listed, subset⟩ := listed_of_readList? list name member
  exact ⟨listed, List.Subset.trans subset (Text.suffix_of_afterKeyword? keyword).subset⟩

/-- The names in a constraint that was read. -/
theorem listed_of_read {text : Text} (found : read text = .ok (some constraint)) :
    ∀ name ∈ constraint.columns, Listed name ∧ name ⊆ text := by
  have stated : ∃ kind word, readKind? kind (Text.trim text) = some (word, constraint) := by
    dsimp only [read] at found
    split at found
    · cases found
    · next word stated matched =>
        split at found
        · cases found
        · cases found
          split at matched
          · next unique =>
              cases matched
              exact ⟨_, _, unique⟩
          · exact ⟨_, _, matched⟩
  obtain ⟨kind, word, stated⟩ := stated
  intro name member
  obtain ⟨listed, subset⟩ := listed_of_readKind? stated name member
  exact ⟨listed, List.Subset.trans subset (Text.trim_subset text)⟩

/-- A constraint is read back from its written form exactly when it has columns, and every
name stands apart in the list and is not written bare with a line feed at its end. -/
theorem rereads_iff_listed (constraint : TableConstraint) :
    read constraint.render = .ok (some constraint) ↔
      constraint.columns ≠ [] ∧
        ∀ name ∈ constraint.columns, Listed name ∧ Identifier.Unambiguous name := by
  constructor
  · intro reread
    have filled : constraint.columns ≠ [] := by
      intro empty
      rw [read_render_of_nil empty] at reread
      cases reread
    have listed : ∀ name ∈ constraint.columns, Listed name :=
      fun name member => (listed_of_read reread name member).1
    rw [read_render_eq filled fun name member => (listed name member).noParenthesis] at reread
    have columns := congrArg TableConstraint.columns (Option.some.inj (Except.ok.inj reread))
    have alone := (readColumns_eq_self_iff filled fun name member => (listed name member).noComma).mp
      columns
    exact ⟨filled, fun name member => ⟨listed name member, (alone name member).2⟩⟩
  · rintro ⟨filled, listed⟩
    exact read_render filled listed

end TableConstraint

end SchemaNotation
