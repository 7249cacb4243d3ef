import SchemaNotation.Proofs.Column
import SchemaNotation.Proofs.ConstraintReader

/-!
# The comment that states a column

A column without a comment of its own gets one that states its constraints and
annotations.  It fits behind a definition, and its annotations are read back unless a
free text of a constraint has one in it.
-/

namespace SchemaNotation

namespace ForeignKey

open Text

variable {target : ForeignKey}

theorem trimmed_describe (apart : target.Apart) : Trimmed target.describe := by
  have starts : ∀ rest, Stops isBlank ("FK -> ".toList ++ rest) := by
    intro rest
    exact stops_cons.mpr (by decide)
  have filled : ∀ rest, "FK -> ".toList ++ rest ≠ [] := by
    intro rest
    exact List.cons_ne_nil 'F' _
  rw [describe_eq_place apart.filled, suffix]
  cases acts : target.action with
  | none =>
      have shape : target.place = ("FK -> ".toList ++ (target.qualifier ++
          (Identifier.render target.table ++ '(' :: Identifier.render target.column))) ++ [')'] := by
        rw [place_eq]
        generalize "FK -> ".toList = lead
        simp only [List.append_assoc, List.cons_append]
      rw [List.append_nil, shape]
      exact trimmed_append (filled _) (starts _) (by simp) (by decide)
  | some action =>
      obtain ⟨phrase, member, spells⟩ := (apart.action action acts).spells
      have keywords := isKeyword_actions phrase member
      have actionFilled : action ≠ [] := by
        obtain ⟨c, rest, shape, _⟩ := spells.starts keywords
        simp [shape]
      have regroup : ∀ lead located comma : Text,
          lead ++ located ++ (comma ++ action) = lead ++ (located ++ comma) ++ action := by
        intro lead located comma
        simp only [List.append_assoc]
      rw [place_eq, regroup]
      exact trimmed_append (filled _) (starts _) actionFilled (spells.trimmed keywords)

/-- All texts of a reference. -/
def strings (target : ForeignKey) : List Text :=
  target.names ++ target.action.toList

theorem lineFree_describe (free : ∀ string ∈ target.strings, LineFree string) :
    LineFree target.describe := by
  have lead : LineFree "FK -> ".toList := by
    decide
  have comma : LineFree ", ".toList := by
    decide
  have table := Identifier.lineFree_render (free target.table (by simp [strings, names]))
  have column := Identifier.lineFree_render (free target.column (by simp [strings, names]))
  have qualifier : ∀ schema, target.schema = some schema → LineFree (Identifier.render schema) :=
    fun schema named => Identifier.lineFree_render (free schema (by simp [strings, names, named]))
  have action : ∀ action, target.action = some action → LineFree action :=
    fun action acts => free action (by simp [strings, acts])
  unfold describe
  dsimp only
  simp only [lineFree_append, lineFree_cons]
  refine ⟨⟨⟨⟨lead, ?_⟩, table⟩, by decide, column⟩, by decide, ?_⟩
  · split
    · next c schema named => simpa using qualifier (c :: schema) named
    · exact lineFree_nil
  · split
    · next c rest acts => exact lineFree_append.mpr ⟨comma, action (c :: rest) acts⟩
    · exact lineFree_nil

/-- A reference states no annotation unless one of its names does. -/
theorem silent_describe (apart : target.Apart)
    (free : ∀ name ∈ target.names, LineFree name)
    (silent : ∀ name ∈ target.names, Tag.Silent name) : Tag.Silent target.describe := by
  have written : ∀ name ∈ target.names, Tag.Silent (Identifier.render name) := by
    intro name member
    exact Tag.silent_render (free name member).2 (silent name member)
  have suffix : Tag.Silent target.suffix := by
    rw [ForeignKey.suffix]
    cases acts : target.action with
    | none => exact Tag.silent_nil
    | some action =>
        obtain ⟨phrase, member, spells⟩ := (apart.action action acts).spells
        apply Tag.silent_plain_append (by decide)
        apply Tag.silent_of_not_mem
        intro isAt
        rcases spells.mem (isKeyword_actions phrase member) '@' isAt with word | blank
        · exact absurd word (by decide)
        · exact absurd blank (by decide)
  have behind : Tag.Silent (Identifier.render target.column ++ ')' :: target.suffix) := by
    apply Tag.silent_append (stops_cons.mpr (by decide)) (written _ (by simp [names]))
    exact Tag.silent_cons.mpr ⟨Tag.opensHere_cons_of_ne (by decide) _, suffix⟩
  have located : Tag.Silent (Identifier.render target.table ++
      '(' :: (Identifier.render target.column ++ ')' :: target.suffix)) := by
    apply Tag.silent_append (stops_cons.mpr (by decide)) (written _ (by simp [names]))
    exact Tag.silent_cons.mpr ⟨Tag.opensHere_cons_of_ne (by decide) _, behind⟩
  rw [describe_eq apart.filled]
  apply Tag.silent_plain_append (by decide)
  rw [qualifier]
  cases named : target.schema with
  | none => exact located
  | some schema =>
      rw [List.append_assoc]
      apply Tag.silent_append (stops_cons.mpr (by decide)) (written schema (by simp [names, named]))
      exact Tag.silent_cons.mpr ⟨Tag.opensHere_cons_of_ne (by decide) _, located⟩

end ForeignKey

namespace Constraint

open Text

/-- All texts of a constraint. -/
def strings : Constraint → List Text
  | .foreignKey target => target.strings
  | constraint => constraint.payload

theorem lineFree_describe {constraint : Constraint}
    (free : ∀ string ∈ constraint.strings, LineFree string) : LineFree constraint.describe := by
  have plain : constraint ∈ fixed → LineFree constraint.describe := by
    have words : ∀ constraint ∈ fixed, LineFree constraint.describe := by
      decide
    exact words constraint
  cases constraint with
  | primaryKey | unique | index | autoIncrement => exact plain (by simp [fixed])
  | foreignKey target => exact ForeignKey.lineFree_describe free
  | defaultValue value =>
      exact lineFree_append.mpr ⟨by decide, free value (by simp [strings, payload])⟩
  | checkIn expression =>
      apply lineFree_append.mpr
      exact ⟨lineFree_append.mpr ⟨by decide, free expression (by simp [strings, payload])⟩,
        by decide⟩

theorem Statable.lineFree {constraint : Constraint} (statable : constraint.Statable) :
    ∀ string ∈ constraint.strings, LineFree string := by
  cases constraint with
  | foreignKey target =>
      intro string member
      rcases List.mem_append.mp member with named | acts
      · exact statable.free string named
      · exact (statable.separable.action string (Option.mem_toList.mp acts)).1
  | _ => exact statable.free

section Described

variable {constraint : Constraint} (recognisable : constraint.Recognisable)

include recognisable

theorem trimmed_describe : Trimmed constraint.describe := by
  have apart := recognisable.apart
  have words : ∀ constraint ∈ fixed, trim constraint.describe = constraint.describe := by
    decide
  have plain : constraint ∈ fixed → Trimmed constraint.describe := by
    intro isFixed
    rw [← words constraint isFixed]
    exact trimmed_trim _
  cases constraint with
  | primaryKey | unique | index | autoIncrement => exact plain (by simp [fixed])
  | foreignKey target => exact ForeignKey.trimmed_describe apart
  | defaultValue value =>
      exact trimmed_append (List.cons_ne_nil 'D' _) (stops_cons.mpr (by decide)) apart.1
        apart.2.1
  | checkIn expression =>
      exact trimmed_append (List.cons_ne_nil 'C' _) (stops_cons.mpr (by decide)) (by simp)
        (by decide)

/-- A constraint states no annotation unless one of its free texts does. -/
theorem silent_describe (silent : ∀ text ∈ constraint.payload, Tag.Silent text) :
    Tag.Silent constraint.describe := by
  have plain : constraint ∈ fixed → Tag.Silent constraint.describe := by
    have words : ∀ constraint ∈ fixed, '@' ∉ constraint.describe := by
      decide
    intro isFixed
    exact Tag.silent_of_not_mem (words constraint isFixed)
  cases constraint with
  | primaryKey | unique | index | autoIncrement => exact plain (by simp [fixed])
  | foreignKey target =>
      exact ForeignKey.silent_describe recognisable.apart recognisable.free silent
  | defaultValue value =>
      exact Tag.silent_plain_append (by decide) (silent value (by simp [payload]))
  | checkIn expression =>
      apply Tag.silent_append (stops_cons.mpr (by decide))
      · exact Tag.silent_plain_append (by decide) (silent expression (by simp [payload]))
      · exact Tag.silent_of_not_mem (by decide)

end Described

theorem describe_ne_nil (constraint : Constraint) : constraint.describe ≠ [] := by
  obtain ⟨c, rest, shape, _⟩ := (Fact.constraint constraint).opens
  rw [Fact.text] at shape
  simp [shape]

/-- A comment starts with the fact that it states first. -/
theorem comment_starts {constraints : List Constraint} {tags : List Tag} {fact : Fact}
    {others : List Fact} (shape : facts constraints tags = fact :: others) :
    ∃ rest, comment constraints tags = fact.text ++ rest ∧ Text.Follows starts rest := by
  have opens : ∀ segment ∈ others.map Fact.text, ∃ c rest, segment = c :: rest ∧ c ∈ starts := by
    intro segment member
    obtain ⟨other, _, rfl⟩ := List.mem_map.mp member
    exact other.opens
  obtain ⟨rest, joined, follows, _⟩ : ∃ rest, List.intercalate ", ".toList
      (fact.text :: others.map Fact.text) = fact.text ++ rest ∧ Text.Follows starts rest ∧ _ :=
    Text.intercalate_follows opens
  rw [comment, shape, List.map_cons]
  exact ⟨rest, joined, follows⟩

theorem lineFree_comment {constraints : List Constraint} {tags : List Tag}
    (described : ∀ constraint ∈ constraints, ∀ string ∈ constraint.strings, LineFree string)
    (tagged : ∀ tag ∈ tags, LineFree tag.render) : LineFree (comment constraints tags) := by
  apply lineFree_intercalate (by decide)
  intro piece member
  obtain ⟨fact, factMem, rfl⟩ := List.mem_map.mp member
  rcases List.mem_append.mp factMem with stated | noted
  · obtain ⟨constraint, constraintMem, rfl⟩ := List.mem_map.mp stated
    exact lineFree_describe (described constraint constraintMem)
  · obtain ⟨tag, tagMem, rfl⟩ := List.mem_map.mp noted
    exact tagged tag tagMem

section Comment

variable {constraints : List Constraint} {tags : List Tag}
  (recognisable : ∀ constraint ∈ constraints, constraint.Recognisable)
  (readable : ∀ tag ∈ tags, tag.Readable)

include recognisable readable

theorem trimmed_comment (filled : facts constraints tags ≠ []) :
    comment constraints tags ≠ [] ∧ Trimmed (comment constraints tags) := by
  apply trimmed_intercalate
  · simpa using filled
  · intro piece member
    obtain ⟨fact, factMem, rfl⟩ := List.mem_map.mp member
    rcases List.mem_append.mp factMem with stated | tagged
    · obtain ⟨constraint, constraintMem, rfl⟩ := List.mem_map.mp stated
      exact ⟨describe_ne_nil constraint, trimmed_describe (recognisable constraint constraintMem)⟩
    · obtain ⟨tag, tagMem, rfl⟩ := List.mem_map.mp tagged
      exact ⟨tag.render_ne_nil, Tag.trimmed_render (readable tag tagMem)⟩

/-- The annotations of a comment are read back behind constraints that state none. -/
theorem readAll_tags_comment
    (silent : ∀ constraint ∈ constraints, ∀ text ∈ constraint.payload, Tag.Silent text) :
    Tag.readAll (comment constraints tags) = tags := by
  have described : Tag.Silent (List.intercalate ", ".toList (constraints.map describe)) := by
    apply Tag.silent_intercalate
    intro piece member
    obtain ⟨constraint, constraintMem, rfl⟩ := List.mem_map.mp member
    exact silent_describe (recognisable constraint constraintMem) (silent constraint constraintMem)
  have tagged := Tag.readAll_intercalate fun tag member => (readable tag member).delimited
  rw [comment_eq]
  by_cases unconstrained : constraints.map describe = []
  · rw [unconstrained, List.nil_append]
    exact tagged
  by_cases untagged : tags.map Tag.render = []
  · rw [untagged, List.append_nil, List.map_eq_nil_iff.mp untagged]
    exact Tag.readAll_of_silent described
  · have comma : ∀ rest, Stops Tag.isOpening (", ".toList ++ rest) := by
      intro rest
      exact stops_cons.mpr (by decide)
    rw [intercalate_append _ unconstrained untagged, Tag.readAll_append described (comma _),
      Tag.readAll_append Tag.silent_comma (Tag.stops_intercalate tags)]
    exact tagged

end Comment

end Constraint

end SchemaNotation
