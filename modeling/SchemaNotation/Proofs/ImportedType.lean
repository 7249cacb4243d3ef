import SchemaNotation.Ddl.Import
import SchemaNotation.Proofs.ColumnType
import SchemaNotation.Proofs.DeclaredType
import SchemaNotation.Proofs.TypeMap

/-!
# Reading imported types back

The type of an imported column is the one that its declared type is mapped to.  Its base is a
name of the notation, and a length is read back from its digits.  But a declaration can also
give a length below zero, as a number or by the word for the greatest length, and where the
mapped type keeps that length, what is written is no type.
-/

namespace SchemaNotation

/-- The names of base types are words. -/
theorem BaseType.parts (base : BaseType) : ColumnType.SimpleParts base.name none where
  filled := by cases base <;> decide
  word := by
    have word : base.name.all isWord = true := by cases base <;> decide
    exact List.all_eq_true.mp word
  digits := by simp

/-- No name of a base type is a number. -/
theorem BaseType.exists_no_digit (base : BaseType) : ∃ c ∈ base.name, isDigit c = false := by
  have other : base.name.any (fun c => !isDigit c) = true := by cases base <;> decide
  simpa using List.any_eq_true.mp other

namespace MappedType

/-- The type of a column that was mapped. -/
def columnType (mapped : MappedType) : ColumnType :=
  .simple mapped.base.name mapped.length mapped.isArray

/-- A mapped type is read back unless its length is below zero. -/
theorem read_render_columnType {mapped : MappedType}
    (inLimit : ∀ length ∈ mapped.length, Integer.InLimit length.natAbs) :
    ColumnType.read mapped.columnType.render =
      .ok (if ∃ length ∈ mapped.length, length < 0 then none else some mapped.columnType) := by
  split
  · next negative =>
      obtain ⟨length, found, below⟩ := negative
      rw [columnType, Option.mem_def.mp found]
      exact ColumnType.read_render_of_negative mapped.base.parts below mapped.isArray
  · next natural =>
      have parts := mapped.base.parts
      apply ColumnType.read_render
      refine ⟨⟨parts.filled, parts.word⟩, ?_, fun _ _ => mapped.base.exists_no_digit⟩
      intro length found
      have notBelow : ¬length < 0 := fun below => natural ⟨length, found, below⟩
      exact ⟨length.natAbs, by omega, inLimit length found⟩

end MappedType

namespace Dialect

/-- Whether a declared length below zero stays in the mapped type.  The name has to keep its
length, and only the longest strings of SQL Server become texts instead. -/
def LeavesNegative (dialect : Dialect) (declared : DeclaredType) : Prop :=
  ∃ length ∈ declared.length, length < 0 ∧
    let name := (dialect.elementName declared.name).1
    dialect.keepsLength name = true ∧
      ¬(dialect = .sqlserver ∧ (name = "varchar".toList ∨ name = "nvarchar".toList) ∧
        length = maxLength)

instance (dialect : Dialect) (declared : DeclaredType) :
    Decidable (dialect.LeavesNegative declared) :=
  inferInstanceAs (Decidable (∃ length ∈ declared.length, _))

theorem leavesNegative_iff {dialect : Dialect} {declared : DeclaredType} :
    dialect.LeavesNegative declared ↔
      ∃ length ∈ (dialect.mapType declared.name declared.length declared.scale).length,
        length < 0 := by
  rw [mapType_eq, LeavesNegative]
  simp only [Option.mem_def, length_mapElement_eq_some_iff]
  constructor
  · rintro ⟨length, found, below, keeps, regular⟩
    rw [found]
    exact ⟨length, ⟨rfl, keeps, (exception?_eq_none_iff below keeps).mpr regular⟩, below⟩
  · rintro ⟨length, ⟨found, keeps, regular⟩, below⟩
    rw [found] at regular
    exact ⟨length, found, below, keeps, (exception?_eq_none_iff below keeps).mp regular⟩

/-- What a declared type is mapped to becomes the type of the imported column.  It is read
back from its written form as the same type, unless a length below zero was left in it.  Then
the written form is no type. -/
theorem reads_mapped_back (dialect : Dialect) (text : Text) :
    let declared := DeclaredType.read text
    let mapped := dialect.mapType declared.name declared.length declared.scale
    (∀ name, (Ddl.columnOfType dialect name text).type = mapped.columnType) ∧
      ColumnType.read mapped.columnType.render =
        .ok (if dialect.LeavesNegative declared then none else some mapped.columnType) := by
  intro declared mapped
  refine ⟨fun _ => rfl, ?_⟩
  have inLimit : ∀ length ∈ mapped.length, Integer.InLimit length.natAbs := by
    intro length found
    simp only [mapped, mapType_eq, Option.mem_def, length_mapElement_eq_some_iff] at found
    exact DeclaredType.inLimit_of_read_length found.1
  rw [MappedType.read_render_columnType inLimit]
  simp only [leavesNegative_iff, mapped]

/-- The greatest length of a PostgreSQL string is written as a number below zero, and what is
written is no type. -/
theorem greatest_length_unread :
    let declared := DeclaredType.read "VARCHAR(MAX)".toList
    let mapped := mapType .postgresql declared.name declared.length declared.scale
    mapped.columnType = .simple "string".toList (some (-1)) false ∧
      mapped.columnType.render = "string(-1)".toList ∧
      ColumnType.read mapped.columnType.render ≠ .ok (some mapped.columnType) := by
  intro declared mapped
  have type : mapped.columnType = .simple BaseType.string.name (some (-1)) false := by decide
  rw [type]
  refine ⟨rfl, by decide, ?_⟩
  rw [ColumnType.read_render_of_negative BaseType.string.parts (by decide) false]
  simp

end Dialect

end SchemaNotation
