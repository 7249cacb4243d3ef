import SchemaNotation.Ddl.Import
import Mathlib.Data.List.Forall2
import Mathlib.Data.List.Nodup

/-!
# Lists with keys

The entries of a list are known by a key.  An entry with a new key goes to the end, and
one with a known key takes the place of the old one, so keys that are distinct stay so.
-/

namespace SchemaNotation

variable {α β : Type} {key : α → Text} {entry other : α} {entries : List α} {name : Text}
  {change : α → α} {relation : β → α → Prop} {sources : List β}

theorem key_of_find? (found : entries.find? (key · == name) = some entry) : key entry = name := by
  simpa using List.find?_some found

/-- Entries with other keys stay in front, as they are. -/
theorem putByKey_append {front : List α} (fresh : key entry ∉ front.map key) (entries : List α) :
    putByKey key entry (front ++ entries) = front ++ putByKey key entry entries := by
  induction front with
  | nil => rfl
  | cons first front ih =>
      rw [List.map_cons, List.mem_cons, not_or] at fresh
      rw [List.cons_append, putByKey, if_neg (Ne.symm fresh.1), ih fresh.2, List.cons_append]

theorem putByKey_of_not_mem (fresh : key entry ∉ entries.map key) :
    putByKey key entry entries = entries ++ [entry] := by
  have last := putByKey_append fresh []
  rwa [List.append_nil] at last

theorem find?_key_append {front : List α} (fresh : name ∉ front.map key) (entries : List α) :
    (front ++ entries).find? (key · == name) = entries.find? (key · == name) := by
  have absent : front.find? (key · == name) = none := by
    rw [List.find?_eq_none]
    intro entry member same
    exact fresh (beq_iff_eq.mp same ▸ List.mem_map_of_mem member)
  rw [List.find?_append, absent, Option.none_or]

theorem map_key_putByKey_of_mem (known : key entry ∈ entries.map key) :
    (putByKey key entry entries).map key = entries.map key := by
  induction entries with
  | nil => cases known
  | cons first entries ih =>
      rw [putByKey]
      split
      · next same => rw [List.map_cons, List.map_cons, same]
      · next differs =>
          rw [List.map_cons, List.mem_cons] at known
          rw [List.map_cons, List.map_cons, ih (known.resolve_left (Ne.symm differs))]

/-- The keys of entries that are put one after the other are the distinct ones, each at
the place where it came first. -/
theorem map_key_putByKey {keys : List Text} (known : entries.map key = keys.eraseDups) :
    (putByKey key entry entries).map key = (keys ++ [key entry]).eraseDups := by
  rw [List.eraseDups_append, ← known]
  by_cases present : key entry ∈ keys
  · have repeated : key entry ∈ entries.map key := by
      rw [known]
      exact List.mem_eraseDups.mpr present
    rw [map_key_putByKey_of_mem repeated]
    simp [List.removeAll, present]
  · have fresh : key entry ∉ entries.map key := by
      rw [known]
      exact fun member => present (List.mem_eraseDups.mp member)
    rw [putByKey_of_not_mem fresh]
    simp [List.removeAll, List.eraseDups_cons, present]

theorem nodup_putByKey (distinct : (entries.map key).Nodup) :
    ((putByKey key entry entries).map key).Nodup := by
  by_cases known : key entry ∈ entries.map key
  · rw [map_key_putByKey_of_mem known]
    exact distinct
  · rw [putByKey_of_not_mem known, List.map_append, List.map_singleton]
    exact List.nodup_append_comm.mp (List.nodup_cons.mpr ⟨known, distinct⟩)

theorem mem_putByKey : entry ∈ putByKey key entry entries := by
  induction entries with
  | nil => exact List.mem_singleton_self entry
  | cons first entries ih =>
      rw [putByKey]
      split
      · exact List.mem_cons_self
      · exact List.mem_cons_of_mem first ih

theorem mem_of_mem_putByKey (member : other ∈ putByKey key entry entries) :
    other = entry ∨ other ∈ entries := by
  induction entries with
  | nil => exact Or.inl (List.mem_singleton.mp member)
  | cons first entries ih =>
      rw [putByKey] at member
      split at member
      · exact (List.mem_cons.mp member).imp_right (List.mem_cons_of_mem first)
      · rcases List.mem_cons.mp member with rfl | member
        · exact Or.inr List.mem_cons_self
        · exact (ih member).imp_right (List.mem_cons_of_mem first)

/-- Among entries with distinct keys, a new one leaves those with other keys. -/
theorem key_ne_of_mem_putByKey (distinct : (entries.map key).Nodup)
    (member : other ∈ putByKey key entry entries) :
    other = entry ∨ other ∈ entries ∧ key other ≠ key entry := by
  rcases mem_of_mem_putByKey member with rfl | earlier
  · exact Or.inl rfl
  · by_cases same : key other = key entry
    · have new : entry ∈ putByKey key entry entries := mem_putByKey
      exact Or.inl (List.inj_on_of_nodup_map (nodup_putByKey distinct) member new same)
    · exact Or.inr ⟨earlier, same⟩

/-- An entry that takes the place of another one leaves every other entry as it is. -/
theorem forall₂_putByKey {old : α} (related : List.Forall₂ relation sources entries)
    (found : entries.find? (key · == key entry) = some old)
    (replaced : ∀ source, relation source old → relation source entry) :
    List.Forall₂ relation sources (putByKey key entry entries) := by
  induction related with
  | nil => cases found
  | @cons source first sources entries head tail ih =>
      rw [List.find?_cons] at found
      rw [putByKey]
      split at found
      · next same =>
          cases found
          rw [if_pos (beq_iff_eq.mp same)]
          exact .cons (replaced source head) tail
      · next differs =>
          rw [if_neg (ne_of_beq_false differs)]
          exact .cons head (ih found)

/-- Lists that are related entry by entry, with the same keys, stay so when related
entries are put into both. -/
theorem forall₂_putByKey_both {keyOf : β → Text} {source : β}
    (related : List.Forall₂ relation sources entries) (new : relation source entry)
    (sameKey : ∀ source other, relation source other → keyOf source = key other) :
    List.Forall₂ relation (putByKey keyOf source sources) (putByKey key entry entries) := by
  induction related with
  | nil => exact .cons new .nil
  | cons head tail ih =>
      rw [putByKey, putByKey, sameKey _ _ head, sameKey _ _ new]
      split
      · exact .cons new tail
      · exact .cons head ih

theorem modifyByKey_of_not_mem (unknown : name ∉ entries.map key) :
    modifyByKey key name change entries = entries := by
  induction entries with
  | nil => rfl
  | cons first entries ih =>
      rw [List.map_cons, List.mem_cons, not_or] at unknown
      rw [modifyByKey, if_neg (Ne.symm unknown.1), ih unknown.2]

/-- At most one entry is changed, and all others are left as they are. -/
theorem forall₂_modifyByKey (related : List.Forall₂ relation sources entries)
    (changed : ∀ source other, relation source other → relation source (change other)) :
    List.Forall₂ relation sources (modifyByKey key name change entries) := by
  induction related with
  | nil => exact .nil
  | @cons source first _ _ head tail ih =>
      rw [modifyByKey]
      split
      · exact .cons (changed source first head) tail
      · exact .cons head ih

theorem map_key_modifyByKey (keeps : ∀ other, key (change other) = key other) :
    (modifyByKey key name change entries).map key = entries.map key := by
  induction entries with
  | nil => rfl
  | cons first entries ih =>
      rw [modifyByKey]
      split
      · rw [List.map_cons, List.map_cons, keeps]
      · rw [List.map_cons, List.map_cons, ih]

/-- Of entries with distinct keys, exactly the one with the key is changed. -/
theorem modifyByKey_eq_map (distinct : (entries.map key).Nodup) :
    modifyByKey key name change entries =
      entries.map fun entry => if key entry = name then change entry else entry := by
  induction entries with
  | nil => rfl
  | cons first entries ih =>
      rw [List.map_cons, List.nodup_cons] at distinct
      rw [modifyByKey, List.map_cons]
      split
      · next same =>
          have others := ih distinct.2
          rw [modifyByKey_of_not_mem (same ▸ distinct.1)] at others
          rw [← others]
      · rw [ih distinct.2]

/-- A change of one entry and a new entry with another key do not see each other. -/
theorem modifyByKey_putByKey (keeps : ∀ other, key (change other) = key other)
    (apart : key entry ≠ name) :
    modifyByKey key name change (putByKey key entry entries) =
      putByKey key entry (modifyByKey key name change entries) := by
  induction entries with
  | nil => rw [putByKey, modifyByKey, modifyByKey, putByKey, if_neg apart, modifyByKey]
  | cons first entries ih =>
      by_cases same : key first = key entry
      · have differs : key first ≠ name := same ▸ apart
        rw [putByKey, if_pos same, modifyByKey, if_neg apart, modifyByKey, if_neg differs, putByKey,
          if_pos same]
      · rw [putByKey, if_neg same, modifyByKey, modifyByKey, ih]
        split
        · rw [putByKey, keeps, if_neg same]
        · rw [putByKey, if_neg same]

/-- A change of an entry is lost when another one takes its place. -/
theorem putByKey_modifyByKey (keeps : ∀ other, key (change other) = key other) :
    putByKey key entry (modifyByKey key (key entry) change entries) =
      putByKey key entry entries := by
  induction entries with
  | nil => rfl
  | cons first entries ih =>
      rw [modifyByKey, putByKey]
      split
      · next same => rw [putByKey, keeps, if_pos same]
      · next differs => rw [putByKey, if_neg differs, ih]

theorem mem_of_mem_modifyByKey (member : other ∈ modifyByKey key name change entries) :
    other ∈ entries ∨ ∃ old ∈ entries, other = change old := by
  induction entries with
  | nil => cases member
  | cons first entries ih =>
      rw [modifyByKey] at member
      split at member
      · rcases List.mem_cons.mp member with rfl | member
        · exact Or.inr ⟨first, List.mem_cons_self, rfl⟩
        · exact Or.inl (List.mem_cons_of_mem first member)
      · rcases List.mem_cons.mp member with rfl | member
        · exact Or.inl List.mem_cons_self
        · rcases ih member with old | ⟨old, oldMem, rfl⟩
          · exact Or.inl (List.mem_cons_of_mem first old)
          · exact Or.inr ⟨old, List.mem_cons_of_mem first oldMem, rfl⟩

end SchemaNotation
