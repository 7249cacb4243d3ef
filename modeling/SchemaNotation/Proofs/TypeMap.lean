import SchemaNotation.Proofs.Letter
import SchemaNotation.TypeMap

/-!
# Types are mapped by the name of their element

A type name is looked up in lower case, without the blanks around it and without the mark of
an array.  What it is mapped to depends on nothing else about its spelling, and the mark
changes nothing but the flag for arrays.
-/

namespace SchemaNotation

namespace Dialect

/-! ## Element names -/

/-- The marks of arrays are caseless. -/
theorem caseless_arrayMarks : ∀ c ∈ "[]_".toList, Caseless c := by
  have known : "[]_".toList.all (fun c => decide (c.isUpper = false ∧ c.isLower = false ∧
      c ≠ kelvinSign ∧ c ≠ dottedCapitalI ∧ c ≠ dotAbove)) = true := by
    decide
  intro c member
  obtain ⟨notUpper, notLower, noKelvin, noDotted, noDot⟩ :=
    of_decide_eq_true (List.all_eq_true.mp known c member)
  exact caseless_of_no_letter notUpper notLower noKelvin noDotted noDot

section Element

variable {name type : Text}

/-- Blanks around a type name make no difference. -/
theorem elementName_between_blanks (dialect : Dialect) {before after : Text}
    (beforeBlank : Text.Blank before) (afterBlank : Text.Blank after) (type : Text) :
    dialect.elementName (before ++ type ++ after) = dialect.elementName type := by
  rw [elementName, elementName, Text.trim_of_append_blank afterBlank,
    Text.trim_of_blank_append beforeBlank]

/-- Behind a mark of two brackets, with or without blanks before it, is an array. -/
theorem elementName_append_mark (dialect : Dialect) (type : Text) :
    dialect.elementName (type ++ "[]".toList) = (Text.lower (Text.trim type), true) := by
  have mark : Text.lower "[]".toList = "[]".toList := by decide
  rw [elementName, Text.trim_append (by decide) (by decide), Text.lower_append, mark,
    Text.before?_append]
  simp only [Text.trimRight_lower, Text.trim]

theorem before?_lower_eq_none (unmarked : ¬"[]".toList <:+ type) :
    Text.before? "[]".toList (Text.lower type) = none := by
  rw [Text.before?_eq_none_iff]
  intro ends
  have brackets : "[]".toList ⊆ "[]_".toList := by decide
  exact unmarked (Text.suffix_of_suffix_lower
    (fun c member => caseless_arrayMarks c (brackets member)) ends)

theorem hasUnderscoreArrays_of_ne {dialect : Dialect} (other : dialect ≠ .postgresql) :
    dialect.hasUnderscoreArrays = false := by
  cases dialect with
  | postgresql => exact (other rfl).elim
  | sqlserver | mysql | oracle | sqlite => rfl

/-- A name without a mark is the name of the type itself. -/
theorem elementName_of_unmarked {dialect : Dialect} (trimmed : Text.Trimmed name)
    (unmarked : ¬"[]".toList <:+ name)
    (plain : dialect ≠ .postgresql ∨ name.head? ≠ some '_') :
    dialect.elementName name = (Text.lower name, false) := by
  rw [elementName, trimmed.trim_eq, before?_lower_eq_none unmarked]
  split
  · next found => cases found
  · next element _ shape =>
      have noArrays : dialect.hasUnderscoreArrays = false := by
        rcases plain with other | noUnderscore
        · exact hasUnderscoreArrays_of_ne other
        · have starts : (Text.lower name).head? = some '_' := by rw [shape]; rfl
          exact (noUnderscore (Text.head?_of_head?_lower
            (caseless_arrayMarks '_' (by decide)) starts)).elim
      rw [noArrays, shape]
      rfl
  · rfl

/-- In PostgreSQL an underscore in front marks an array. -/
theorem elementName_underscore (trimmed : Text.Trimmed name) (unmarked : ¬"[]".toList <:+ name) :
    elementName .postgresql ('_' :: name) = (Text.lower name, true) := by
  have underscored : Text.Trimmed ('_' :: name) := by
    cases name with
    | nil => decide
    | cons c name =>
        exact Text.trimmed_append (List.cons_ne_nil '_' []) (Text.stops_cons.mpr (by decide))
          (List.cons_ne_nil c name) trimmed
  have noMark : ¬"[]".toList <:+ '_' :: name := by
    intro ends
    rcases List.suffix_cons_iff.mp ends with whole | inside
    · exact absurd (List.cons.inj whole).1 (by decide)
    · exact unmarked inside
  have mark : lowerLetter '_' = ['_'] := (caseless_arrayMarks '_' (by decide)).own
  rw [elementName, underscored.trim_eq, before?_lower_eq_none noMark, Text.lower_cons, mark]
  rfl

end Element

/-! ## Looking up -/

/-- What the name of an element is mapped to. -/
def mapElement (dialect : Dialect) (name : Text) (length scale : Option Int) : MappedType :=
  match dialect.exception? name length scale with
  | some base => { base }
  | none =>
      match dialect.types.find? fun group => group.names.any (·.toList == name) with
      | none => { base := .string }
      | some group =>
          { base := group.base
            length := if group.keepsLength then length else none
            format := group.format.map String.toList }

/-- A type is mapped as its element, and the flag for arrays is set beside that. -/
theorem mapType_eq (dialect : Dialect) (type : Text) (length scale : Option Int) :
    dialect.mapType type length scale =
      { dialect.mapElement (dialect.elementName type).1 length scale with
        isArray := (dialect.elementName type).2 } := by
  rw [mapType, mapElement]
  generalize dialect.elementName type = element
  obtain ⟨name, isArray⟩ := element
  dsimp only
  cases dialect.exception? name length scale with
  | some base => rfl
  | none =>
      cases dialect.types.find? fun group => group.names.any (·.toList == name) with
      | none => rfl
      | some group => rfl

/-- Types with one element name are mapped alike, arrays to arrays. -/
theorem mapType_congr {dialect : Dialect} {first second : Text}
    (same : dialect.elementName first = dialect.elementName second) (length scale : Option Int) :
    dialect.mapType first length scale = dialect.mapType second length scale := by
  rw [mapType_eq, mapType_eq, same]

/-- Brackets behind a name set the flag for arrays, unless an underscore sets it already. -/
theorem mapType_append_mark (dialect : Dialect) (length scale : Option Int) {name : Text}
    (trimmed : Text.Trimmed name) (unmarked : ¬"[]".toList <:+ name)
    (plain : dialect ≠ .postgresql ∨ name.head? ≠ some '_') :
    dialect.mapType (name ++ "[]".toList) length scale =
      { dialect.mapType name length scale with isArray := true } := by
  rw [mapType_eq, mapType_eq, elementName_append_mark, trimmed.trim_eq,
    elementName_of_unmarked trimmed unmarked plain]

theorem mapType_underscore (length scale : Option Int) {name : Text}
    (trimmed : Text.Trimmed name) (unmarked : ¬"[]".toList <:+ name) :
    mapType .postgresql ('_' :: name) length scale =
      mapType .postgresql (name ++ "[]".toList) length scale := by
  apply mapType_congr
  rw [elementName_underscore trimmed unmarked, elementName_append_mark, trimmed.trim_eq]

theorem mapType_between_blanks (dialect : Dialect) (length scale : Option Int) (name : Text) :
    ∀ before gap after, Text.Blank before → Text.Blank gap → Text.Blank after →
      dialect.mapType (before ++ name ++ after) length scale =
        dialect.mapType name length scale ∧
      dialect.mapType (before ++ '_' :: name ++ after) length scale =
        dialect.mapType ('_' :: name) length scale ∧
      dialect.mapType (before ++ (name ++ gap ++ "[]".toList) ++ after) length scale =
        dialect.mapType (name ++ "[]".toList) length scale := by
  intro before gap after beforeBlank gapBlank afterBlank
  have around := fun type => mapType_congr
    (elementName_between_blanks dialect beforeBlank afterBlank type) length scale
  refine ⟨around name, around ('_' :: name), ?_⟩
  rw [around]
  apply mapType_congr
  rw [elementName_append_mark, elementName_append_mark, Text.trim_of_append_blank gapBlank]

/-- A name that means a dialect maps types as the dialect does. -/
theorem mapNamed_of_resolve {environment : Environment} {dialectName? : Option Text}
    {dialect : Dialect} (resolved : resolve environment dialectName? = .ok dialect) (type : Text)
    (length scale : Option Int) :
    mapNamed environment dialectName? type length scale =
      .ok (dialect.mapType type length scale) := by
  rw [mapNamed, resolved]
  rfl

/-- All spellings of an array agree.  Two brackets behind the name of a type, or in PostgreSQL
an underscore in front of it, change nothing but the flag for arrays, and blanks around the
type or before the brackets change nothing at all.  This holds of a dialect and of every name
that means it. -/
theorem maps_spellings_alike (dialect : Dialect) (length scale : Option Int) {name : Text}
    (trimmed : Text.Trimmed name) (unmarked : ¬"[]".toList <:+ name) :
    (dialect ≠ .postgresql ∨ name.head? ≠ some '_' →
      dialect.mapType (name ++ "[]".toList) length scale =
        { dialect.mapType name length scale with isArray := true }) ∧
    mapType .postgresql ('_' :: name) length scale =
      mapType .postgresql (name ++ "[]".toList) length scale ∧
    (∀ before gap after, Text.Blank before → Text.Blank gap → Text.Blank after →
      dialect.mapType (before ++ name ++ after) length scale =
        dialect.mapType name length scale ∧
      dialect.mapType (before ++ '_' :: name ++ after) length scale =
        dialect.mapType ('_' :: name) length scale ∧
      dialect.mapType (before ++ (name ++ gap ++ "[]".toList) ++ after) length scale =
        dialect.mapType (name ++ "[]".toList) length scale) ∧
    ∀ environment dialectName?, resolve environment dialectName? = .ok dialect →
      ∃ element array,
        mapNamed environment dialectName? name length scale = .ok element ∧
        mapNamed environment dialectName? (name ++ "[]".toList) length scale = .ok array ∧
        (dialect ≠ .postgresql ∨ name.head? ≠ some '_' →
          array = { element with isArray := true }) ∧
        (dialect = .postgresql →
          mapNamed environment dialectName? ('_' :: name) length scale = .ok array) ∧
        ∀ before gap after, Text.Blank before → Text.Blank gap → Text.Blank after →
          mapNamed environment dialectName? (before ++ name ++ after) length scale = .ok element ∧
          mapNamed environment dialectName? (before ++ '_' :: name ++ after) length scale =
            mapNamed environment dialectName? ('_' :: name) length scale ∧
          mapNamed environment dialectName? (before ++ (name ++ gap ++ "[]".toList) ++ after)
            length scale = .ok array := by
  have marked := mapType_append_mark dialect length scale trimmed unmarked
  have underscored := mapType_underscore length scale trimmed unmarked
  have around := mapType_between_blanks dialect length scale name
  refine ⟨marked, underscored, around, ?_⟩
  intro environment dialectName? resolved
  simp only [mapNamed_of_resolve resolved, Except.ok.injEq]
  refine ⟨_, _, rfl, rfl, marked, ?_, around⟩
  rintro rfl
  exact underscored

/-- An array of addresses in each of its spellings, and one of flags whose length decides. -/
theorem maps_spellings_alike_arrays :
    let addresses : MappedType := { base := .string, isArray := true, format := "cidr".toList }
    let flags : MappedType := { base := .boolean, isArray := true }
    Text.Trimmed "Inet".toList ∧ ¬"[]".toList <:+ "Inet".toList ∧
      Text.Trimmed "TinyInt".toList ∧ ¬"[]".toList <:+ "TinyInt".toList ∧
      mapType .postgresql "Inet[]".toList none none = addresses ∧
      mapType .postgresql "_Inet".toList none none = addresses ∧
      mapType .postgresql "\t_Inet ".toList none none = addresses ∧
      mapType .mysql " TinyInt []\n".toList (some 1) none = flags ∧
      resolve [] (some " PG ".toList) = .ok .postgresql ∧
      mapNamed [] (some " PG ".toList) "_Inet".toList none none = .ok addresses := by
  have trimmed : Text.Trimmed "Inet".toList := by decide
  have unmarked : ¬"[]".toList <:+ "Inet".toList := by decide
  have trimmed' : Text.Trimmed "TinyInt".toList := by decide
  have unmarked' : ¬"[]".toList <:+ "TinyInt".toList := by decide
  have resolved : resolve [] (some " PG ".toList) = .ok .postgresql := by decide
  obtain ⟨mark, underscore, around, named⟩ :=
    maps_spellings_alike .postgresql none none trimmed unmarked
  obtain ⟨mark', -, around', -⟩ := maps_spellings_alike .mysql (some 1) none trimmed' unmarked'
  have addresses := mark (.inr (by decide))
  obtain ⟨-, flanked, -⟩ := around "\t".toList [] " ".toList (by decide) (by decide) (by decide)
  obtain ⟨-, -, spread⟩ := around' " ".toList " ".toList "\n".toList
    (by decide) (by decide) (by decide)
  obtain ⟨element, array, mapped, -, isArray, underscored, -⟩ := named [] _ resolved
  have address : element = { base := .string, format := "cidr".toList } :=
    Except.ok.inj (mapped.symm.trans (by decide))
  rw [isArray (.inr (by decide)), address] at underscored
  exact ⟨trimmed, unmarked, trimmed', unmarked', addresses, underscore.trans addresses,
    (flanked.trans underscore).trans addresses, spread.trans (mark' (.inl (by decide))), resolved,
    underscored rfl⟩

/-! ## Kept lengths -/

/-- Whether a declared length is kept for the named element. -/
def keepsLength (dialect : Dialect) (name : Text) : Bool :=
  (dialect.types.find? fun group => group.names.any (·.toList == name)).any (·.keepsLength)

section Length

variable {dialect : Dialect} {name : Text}

/-- A mapped type has the declared length when its name keeps one and no exception applies. -/
theorem length_mapElement_eq_some_iff {length scale : Option Int} {value : Int} :
    (dialect.mapElement name length scale).length = some value ↔
      length = some value ∧ dialect.keepsLength name = true ∧
        dialect.exception? name length scale = none := by
  rw [mapElement, keepsLength]
  cases dialect.exception? name length scale with
  | some base => simp
  | none =>
      cases dialect.types.find? fun group => group.names.any (·.toList == name) with
      | none => simp
      | some group => cases kept : group.keepsLength <;> simp [kept]

/-- Of the lengths below zero that are kept, only the greatest length of SQL Server's strings is
an exception. -/
theorem exception?_eq_none_iff {scale : Option Int} {value : Int} (below : value < 0)
    (keeps : dialect.keepsLength name = true) :
    dialect.exception? name (some value) scale = none ↔
      ¬(dialect = .sqlserver ∧ (name = "varchar".toList ∨ name = "nvarchar".toList) ∧
        value = maxLength) := by
  cases dialect with
  | sqlserver =>
      rw [exception?, ite_eq_right_iff]
      simp only [Option.some_inj, reduceCtorEq, imp_false, true_and]
  | postgresql | sqlite => simp only [exception?, reduceCtorEq, false_and, not_false_eq_true]
  | mysql =>
      have noFlag : ¬(name = "tinyint".toList ∧ some value = some 1) := by
        rintro ⟨-, one⟩
        exact absurd (Option.some.inj one) (by omega)
      rw [exception?, if_neg noFlag]
      simp only [reduceCtorEq, false_and, not_false_eq_true]
  | oracle =>
      -- The exception is about the precision of a number, which keeps no length.
      have noNumber : ¬(name = "number".toList ∧ (some value).isSome) := by
        rintro ⟨rfl, -⟩
        exact absurd keeps (by decide)
      rw [exception?, if_neg noNumber]
      simp only [reduceCtorEq, false_and, not_false_eq_true]

end Length

end Dialect

end SchemaNotation
