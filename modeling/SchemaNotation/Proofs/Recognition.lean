import SchemaNotation.Proofs.RoundTrip
import SchemaNotation.Proofs.StatedComment

/-!
# Recognition of what a comment states

A comment that states constraints of distinct kinds and annotations is read as exactly
these.  The order in which the constraints are stated makes no difference, because each
kind is looked for on its own.
-/

namespace SchemaNotation.Constraint

/-- The constraints in the order of their kinds in which a comment is read. -/
def inReadOrder (constraints : List Constraint) : List Constraint :=
  constraints.mergeSort fun first second => first.readRank ≤ second.readRank

/-- The names of the kinds in the order in which a comment is read. -/
def kindNames : List Text :=
  ["PRIMARY_KEY", "UNIQUE", "INDEX", "AUTO_INCREMENT", "FOREIGN_KEY", "DEFAULT", "CHECK"].map
    String.toList

theorem kindNames_readRank (constraint : Constraint) :
    kindNames[constraint.readRank]? = some constraint.kindName := by
  cases constraint <;> rfl

theorem kindName_eq_of_readRank_eq {constraint other : Constraint}
    (same : constraint.readRank = other.readRank) : constraint.kindName = other.kindName := by
  rw [← Option.some_inj, ← kindNames_readRank, same, kindNames_readRank]

/-- Constraints of distinct kinds have only one arrangement in the order of reading. -/
theorem eq_inReadOrder {read constraints : List Constraint}
    (distinct : (constraints.map kindName).Nodup) (perm : read.Perm constraints)
    (increasing : read.Pairwise fun first second => first.readRank < second.readRank) :
    read = inReadOrder constraints := by
  have arranged : (inReadOrder constraints).Perm constraints := List.mergeSort_perm ..
  have sorted := increasing.imp fun earlier => Nat.le_of_lt earlier
  refine List.Perm.eq_of_pairwise ?_ sorted (pairwise_mergeSort_rank readRank constraints)
    (perm.trans arranged.symm)
  intro first second firstMem secondMem below above
  have same := kindName_eq_of_readRank_eq (Nat.le_antisymm below above)
  exact List.inj_on_of_nodup_map distinct (perm.subset firstMem) (arranged.subset secondMem) same

/-- A comment that states constraints of distinct kinds and annotations is read as
exactly these, in whatever order it states the constraints. -/
theorem recognises_stated {constraints : List Constraint} {tags : List Tag}
    (distinct : (constraints.map kindName).Nodup)
    (recognisable : ∀ constraint ∈ constraints, constraint.Recognisable)
    (unmarked : ∀ constraint ∈ constraints, ∀ text ∈ constraint.payload, '@' ∉ text)
    (readable : ∀ tag ∈ tags, tag.Readable) (neutral : TagsNeutral tags) :
    ∀ stated : List Constraint, stated.Perm constraints →
      let comment := List.intercalate ", ".toList (stated.map describe ++ tags.map Tag.render)
      readAll comment = inReadOrder constraints ∧ Tag.readAll comment = tags := by
  intro stated perm
  have known : ∀ constraint ∈ stated, constraint.Recognisable :=
    fun constraint member => recognisable constraint (perm.subset member)
  have kinds : (stated.map kindName).Nodup := (perm.map kindName).nodup_iff.mpr distinct
  dsimp only
  rw [← comment_eq]
  constructor
  · exact eq_inReadOrder distinct ((readAll_comment_perm known neutral kinds).trans perm)
      (ordered_readAll _).increasing
  · apply readAll_tags_comment known readable
    intro constraint member text isPayload
    exact Tag.silent_of_not_mem (unmarked constraint (perm.subset member) text isPayload)

section Line

/-- Constraints of all kinds but one, with commas and an action that ends with a keyword in
their texts. -/
def lineConstraints : List Constraint :=
  [.checkIn "'open', 'paid'".toList,
   .foreignKey {
     table := "State, old".toList
     column := "co`de".toList
     schema := some "sales".toList
     action := some "on delete\nset default".toList },
   .unique, .defaultValue "'PKs -> x'".toList, .primaryKey, .index]

/-- Annotations with a comma in a value. -/
def lineTags : List Tag :=
  [⟨"unit".toList, "key @x: y".toList⟩, ⟨"note".toList, "a, b".toList⟩]

/-- The comment that states them. -/
def lineComment : Text :=
  List.intercalate ", ".toList (lineConstraints.map describe ++ lineTags.map Tag.render)

end Line

theorem recognises_stated_line :
    (lineConstraints.map kindName).Nodup ∧
    (∀ constraint ∈ lineConstraints, constraint.Recognisable) ∧
    (∀ constraint ∈ lineConstraints, ∀ text ∈ constraint.payload, '@' ∉ text) ∧
    (∀ tag ∈ lineTags, tag.Readable) ∧ TagsNeutral lineTags ∧
    readAll lineComment = inReadOrder lineConstraints ∧ Tag.readAll lineComment = lineTags := by
  have distinct : (lineConstraints.map kindName).Nodup := by
    decide +kernel
  have recognisable : ∀ constraint ∈ lineConstraints, constraint.Recognisable := by
    decide +kernel
  have unmarked : ∀ constraint ∈ lineConstraints, ∀ text ∈ constraint.payload, '@' ∉ text := by
    decide +kernel
  have readable : ∀ tag ∈ lineTags, tag.Readable := by
    decide +kernel
  have neutral : TagsNeutral lineTags := by
    decide +kernel
  exact ⟨distinct, recognisable, unmarked, readable, neutral,
    recognises_stated distinct recognisable unmarked readable neutral lineConstraints (.refl _)⟩

end SchemaNotation.Constraint
