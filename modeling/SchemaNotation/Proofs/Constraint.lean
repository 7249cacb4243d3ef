import SchemaNotation.Proofs.ForeignKey
import SchemaNotation.Proofs.Tag

/-!
# The words of a constraint

The description of a constraint opens with the word of its kind.  No other word that
opens a kind occurs in it, unless a free text of the constraint has one, or the action
of a reference ends with one.
-/

namespace SchemaNotation.Constraint

open Text

/-! ## Constraints that can be stated -/

/-- The words by which a comment states constraints. -/
def keywords : List Text :=
  ["PK", "PRIMARY", "UNIQUE", "INDEX", "AUTO_INCREMENT", "IDENTITY", "FK", "FOREIGN", "DEFAULT",
    "CHECK"].map String.toList

/-- A text with none of these words. -/
def Neutral (text : Text) : Prop :=
  ∀ keyword ∈ keywords, Lacks keyword text

instance (text : Text) : Decidable (Neutral text) :=
  inferInstanceAs (Decidable (∀ keyword ∈ keywords, Lacks keyword text))

/-- The free texts in a constraint. -/
def payload : Constraint → List Text
  | .foreignKey target => target.names
  | .defaultValue value => [value]
  | .checkIn expression => [expression]
  | _ => []

/-- A constraint whose parts can be told apart in its description. -/
def Apart : Constraint → Prop
  | .foreignKey target => target.Apart
  | .defaultValue value => value ≠ [] ∧ Trimmed value ∧ ',' ∉ value
  | .checkIn expression => expression ≠ [] ∧ Trimmed expression ∧ ')' ∉ expression
  | _ => True

instance (constraint : Constraint) : Decidable constraint.Apart :=
  match constraint with
  | .foreignKey target => inferInstanceAs (Decidable target.Apart)
  | .defaultValue _ => inferInstanceAs (Decidable (_ ∧ _ ∧ _))
  | .checkIn _ => inferInstanceAs (Decidable (_ ∧ _ ∧ _))
  | .primaryKey | .unique | .index | .autoIncrement => inferInstanceAs (Decidable True)

/-- A constraint that is read back from a comment that states it among others. -/
structure Recognisable (constraint : Constraint) : Prop where
  apart : constraint.Apart
  free : ∀ text ∈ constraint.payload, LineFree text
  neutral : ∀ text ∈ constraint.payload, Neutral text

instance (constraint : Constraint) : Decidable constraint.Recognisable :=
  decidable_of_iff (constraint.Apart ∧ (∀ text ∈ constraint.payload, LineFree text) ∧
      ∀ text ∈ constraint.payload, Neutral text)
    ⟨fun ⟨apart, free, neutral⟩ => ⟨apart, free, neutral⟩,
      fun ⟨apart, free, neutral⟩ => ⟨apart, free, neutral⟩⟩

/-- A constraint whose parts can be told apart in its description, which stands on one
line if its free texts do. -/
def Separable : Constraint → Prop
  | .foreignKey target => target.Separable
  | .defaultValue value => value ≠ [] ∧ Trimmed value ∧ ',' ∉ value
  | .checkIn expression => expression ≠ [] ∧ Trimmed expression ∧ ')' ∉ expression
  | _ => True

instance (constraint : Constraint) : Decidable constraint.Separable :=
  match constraint with
  | .foreignKey target => inferInstanceAs (Decidable target.Separable)
  | .defaultValue _ => inferInstanceAs (Decidable (_ ∧ _ ∧ _))
  | .checkIn _ => inferInstanceAs (Decidable (_ ∧ _ ∧ _))
  | .primaryKey | .unique | .index | .autoIncrement => inferInstanceAs (Decidable True)

/-- A constraint that a comment of one line can state among others. -/
structure Statable (constraint : Constraint) : Prop where
  separable : constraint.Separable
  free : ∀ text ∈ constraint.payload, LineFree text
  neutral : ∀ text ∈ constraint.payload, Neutral text

instance (constraint : Constraint) : Decidable constraint.Statable :=
  decidable_of_iff (constraint.Separable ∧ (∀ text ∈ constraint.payload, LineFree text) ∧
      ∀ text ∈ constraint.payload, Neutral text)
    ⟨fun ⟨separable, free, neutral⟩ => ⟨separable, free, neutral⟩,
      fun ⟨separable, free, neutral⟩ => ⟨separable, free, neutral⟩⟩

theorem Separable.apart {constraint : Constraint} (separable : constraint.Separable) :
    constraint.Apart := by
  cases constraint with
  | foreignKey target => exact ForeignKey.Separable.apart separable
  | _ => exact separable

theorem Statable.recognisable {constraint : Constraint} (statable : constraint.Statable) :
    constraint.Recognisable :=
  ⟨statable.separable.apart, statable.free, statable.neutral⟩

/-- The word that opens the description of a constraint. -/
def lead : Constraint → Text
  | .primaryKey => "PRIMARY".toList
  | .unique => "UNIQUE".toList
  | .index => "INDEX".toList
  | .autoIncrement => "AUTO_INCREMENT".toList
  | .foreignKey _ => "FK".toList
  | .defaultValue _ => "DEFAULT".toList
  | .checkIn _ => "CHECK".toList

/-- The constraints that have no free text. -/
def fixed : List Constraint :=
  [.primaryKey, .unique, .index, .autoIncrement]

theorem isKeyword_of_mem : ∀ keyword ∈ keywords, IsKeyword keyword := by
  decide

theorem fold_injective : ∀ keyword ∈ keywords, ∀ other ∈ keywords,
    fold keyword = fold other → keyword = other := by
  decide

/-- The words that open the descriptions, in the order in which they are written. -/
def leads : List Text :=
  ["PRIMARY", "AUTO_INCREMENT", "UNIQUE", "INDEX", "FK", "DEFAULT", "CHECK"].map String.toList

theorem leads_rank (constraint : Constraint) : leads[constraint.rank]? = some constraint.lead := by
  cases constraint <;> rfl

theorem lead_mem_leads (constraint : Constraint) : constraint.lead ∈ leads :=
  List.mem_of_getElem? (leads_rank constraint)

theorem lead_mem (constraint : Constraint) : constraint.lead ∈ keywords := by
  have known : ∀ lead ∈ leads, lead ∈ keywords := by
    decide
  exact known constraint.lead (lead_mem_leads constraint)

/-- The word tells the kind of a constraint. -/
theorem rank_eq_of_lead_eq {constraint other : Constraint} (same : constraint.lead = other.lead) :
    constraint.rank = other.rank := by
  have distinct : leads.Nodup := by
    decide
  obtain ⟨bound, _⟩ := List.getElem?_eq_some_iff.mp (leads_rank constraint)
  apply (List.getElem?_inj bound distinct).mp
  rw [leads_rank, leads_rank, same]

/-! ## Words of a description -/

theorem lacks_fixed : ∀ constraint ∈ fixed, ∀ keyword ∈ keywords, keyword ≠ constraint.lead →
    Lacks keyword constraint.describe := by
  decide

/-- The only keyword among the words of an action stands at the end of it. -/
theorem lacks_actions : ∀ keyword ∈ keywords, keyword ≠ "DEFAULT".toList →
    ∀ phrase ∈ ForeignKey.actionPhrases, ∀ word ∈ phrase, fold word ≠ fold keyword := by
  decide

theorem lacks_actions_dropLast : ∀ phrase ∈ ForeignKey.actionPhrases, ∀ word ∈ phrase.dropLast,
    fold word ≠ fold "DEFAULT".toList := by
  decide

theorem fold_lead_ne (constraint : Constraint) {keyword : Text} (member : keyword ∈ keywords)
    (other : keyword ≠ constraint.lead) : fold constraint.lead ≠ fold keyword := by
  intro same
  exact other (fold_injective constraint.lead (lead_mem constraint) keyword member same).symm

theorem lacks_defaultValue {keyword value : Text} (member : keyword ∈ keywords)
    (other : keyword ≠ "DEFAULT".toList) (lacks : Lacks keyword value) :
    Lacks keyword (defaultValue value).describe := by
  have isKeyword := isKeyword_of_mem keyword member
  have shape : (defaultValue value).describe = "DEFAULT".toList ++ ' ' :: value := rfl
  rw [shape, lacks_append isKeyword (by decide)]
  constructor
  · have letters := isWord_of_fold_eq (show IsKeyword "DEFAULT".toList by decide) rfl
    exact lacks_word isKeyword letters (fold_lead_ne (defaultValue value) member other)
  · exact lacks

theorem lacks_checkIn {keyword expression : Text} (member : keyword ∈ keywords)
    (other : keyword ≠ "CHECK".toList) (lacks : Lacks keyword expression) :
    Lacks keyword (checkIn expression).describe := by
  have isKeyword := isKeyword_of_mem keyword member
  have opening : ∀ key ∈ keywords, key ≠ "CHECK".toList → Lacks key "CHECK IN ".toList := by
    decide
  have shape : (checkIn expression).describe =
      "CHECK IN ".toList ++ '(' :: (expression ++ [')']) := rfl
  rw [shape, lacks_append isKeyword (by decide), lacks_append isKeyword (by decide)]
  constructor
  · exact opening keyword member other
  · exact ⟨lacks, lacks_iff.mpr (lacksFrom_nil isKeyword none)⟩

theorem lacks_tag {keyword : Text} (member : keyword ∈ keywords) {tag : Tag}
    (name : Lacks keyword tag.name) (value : Lacks keyword tag.value) :
    Lacks keyword tag.render := by
  have isKeyword := isKeyword_of_mem keyword member
  have shape : tag.render = '@' :: (tag.name ++ ':' :: ' ' :: tag.value) := by
    simp [Tag.render]
  rw [shape, lacks_separator isKeyword (by decide), lacks_append isKeyword (by decide)]
  exact ⟨name, (lacks_separator isKeyword (by decide)).mpr value⟩

section Passing

variable {α : Type} {read : Option Char → Text → Option α} {keys : List Text}
  (keyed : Keyed keys read) (known : ∀ key ∈ keys, key ∈ keywords)

include keyed known

/-- A scan passes over constraints of another kind, if it does over the actions of
references. -/
theorem passes_describe {constraint : Constraint} (recognisable : constraint.Recognisable)
    (other : ∀ key ∈ keys, key ≠ constraint.lead)
    (actions : ∀ action, ForeignKey.IsAction action → Passes read action) :
    Passes read constraint.describe := by
  have plain : constraint ∈ fixed → Passes read constraint.describe := by
    intro isFixed
    apply keyed.passes
    intro key member
    exact lacks_fixed constraint isFixed key (known key member) (other key member)
  cases constraint with
  | primaryKey | unique | index | autoIncrement => exact plain (by simp [fixed])
  | foreignKey target =>
      apply ForeignKey.passes_describe keyed recognisable.apart
      · intro key member
        exact fold_lead_ne (foreignKey target) (known key member) (other key member)
      · intro key member name nameMem
        exact ⟨(recognisable.free name nameMem).2,
          recognisable.neutral name nameMem key (known key member)⟩
      · intro action acts
        exact actions action (recognisable.apart.action action acts)
  | defaultValue value =>
      apply keyed.passes
      intro key member
      exact lacks_defaultValue (known key member) (other key member)
        (recognisable.neutral value (by simp [payload]) key (known key member))
  | checkIn expression =>
      apply keyed.passes
      intro key member
      exact lacks_checkIn (known key member) (other key member)
        (recognisable.neutral expression (by simp [payload]) key (known key member))

theorem passes_action (noDefault : "DEFAULT".toList ∉ keys) {action : Text}
    (isAction : ForeignKey.IsAction action) : Passes read action := by
  obtain ⟨phrase, member, spells⟩ := isAction.spells
  apply keyed.passes
  intro key keyMem
  have other : key ≠ "DEFAULT".toList := by
    rintro rfl
    exact noDefault keyMem
  exact spells.lacks (keyed.1 key keyMem) (ForeignKey.isKeyword_actions phrase member)
    (lacks_actions key (known key keyMem) other phrase member)

end Passing

end SchemaNotation.Constraint
