import SchemaNotation.Proofs.ImportStep

/-!
# What an import yields

Every table that comes out of a script has the same form, whatever the statements of the
script are and in whatever order they come: its names are distinct, its columns have base
types and state no fact twice, and its comment lines say no more than its schema.
-/

namespace SchemaNotation

/-! ## Columns -/

/-- An imported column has no comment.  Its type is a base type, its constraints are
distinct, and its only annotation can be a format. -/
structure Column.Imported (column : Column) : Prop where
  comment : column.comment = none
  type : ∃ base ∈ BaseType.all, ∃ length isArray,
    column.type = .simple base.name length isArray
  constraints : column.constraints.Nodup
  annotations : column.annotations = [] ∨
    ∃ format, column.annotations = [{ name := "format".toList, value := format }]

theorem BaseType.mem_all (base : BaseType) : base ∈ all := by
  cases base <;> simp [all]

theorem Column.imported_columnOfType (dialect : Dialect) (name type : Text) :
    (Ddl.columnOfType dialect name type).Imported where
  comment := rfl
  type := ⟨_, BaseType.mem_all _, _, _, rfl⟩
  constraints := by
    dsimp only [Ddl.columnOfType]
    split
    · exact List.nodup_singleton _
    · exact List.nodup_nil
  annotations := by
    dsimp only [Ddl.columnOfType]
    generalize (dialect.mapType _ _ _).format = format?
    cases format? with
    | none => exact Or.inl rfl
    | some format => exact Or.inr ⟨format, rfl⟩

theorem Column.Imported.step {before after : Column} (imported : before.Imported)
    (step : Column.Step before after) : after.Imported := by
  cases step with
  | constrain constraint =>
      rw [addConstraint]
      split
      · exact imported
      · next fresh =>
          rw [List.contains_iff_mem] at fresh
          refine { imported with constraints := ?_ }
          exact List.nodup_append_comm.mp (List.nodup_cons.mpr ⟨fresh, imported.constraints⟩)
  | allowNull nullable => exact { imported with }

theorem Column.Imported.steps {before after : Column} (imported : before.Imported)
    (steps : Column.Steps before after) : after.Imported := by
  induction steps with
  | refl => exact imported
  | tail _ step ih => exact ih.step step

/-! ## Tables -/

/-- A table constraint over several named columns. -/
structure TableConstraint.Several (constraint : TableConstraint) : Prop where
  kind : constraint.kind = .unique ∨ constraint.kind = .index
  columns : 2 ≤ constraint.columns.length
  named : ∀ name ∈ constraint.columns, name ≠ []

/-- What stands above an imported table: nothing, or the schema that qualifies its name,
once as an annotation and once as a comment line. -/
inductive Table.Above : List Tag → List Text → Prop where
  | nothing : Above [] []
  | schema {schema : Text} (filled : schema ≠ []) :
      Above [{ name := "schema".toList, value := schema }] ["@schema: ".toList ++ schema]

/-- An imported table has imported columns with distinct names and constraints over
several columns.  Nothing stands above it but the schema that qualifies its name. -/
structure Table.Imported (table : Table) : Prop where
  distinct : (table.columns.map Column.name).Nodup
  columns : ∀ column ∈ table.columns, column.Imported
  constraints : ∀ constraint ∈ table.constraints, constraint.Several
  above : Table.Above table.annotations table.metadata

theorem Table.imported_emptyTable (name : Ddl.ObjectName) : (Ddl.emptyTable name).Imported := by
  rw [Ddl.emptyTable]
  split
  · exact ⟨List.nodup_nil, List.forall_mem_nil _, List.forall_mem_nil _, .nothing⟩
  · next schema qualified =>
      have filled : schema ≠ [] := by
        rintro rfl
        have kept := (Option.filter_eq_some_iff.mp qualified).2
        cases kept
      exact ⟨List.nodup_nil, List.forall_mem_nil _, List.forall_mem_nil _, .schema filled⟩

/-- An imported column may take the place of the one that has its name. -/
theorem Table.Imported.put {table : Table} (imported : table.Imported) {column : Column}
    (new : column.Imported) :
    Table.Imported { table with columns := putByKey Column.name column table.columns } := by
  refine { imported with distinct := nodup_putByKey imported.distinct, columns := ?_ }
  intro other member
  rcases mem_of_mem_putByKey member with rfl | member
  · exact new
  · exact imported.columns other member

theorem Table.Imported.step {before after : Table} (imported : before.Imported)
    (step : Table.Step before after) : after.Imported := by
  cases step with
  | @change name change steps =>
      have sameNames : (modifyByKey Column.name name change before.columns).map Column.name =
          before.columns.map Column.name :=
        map_key_modifyByKey fun column => (steps column).name_eq
      refine { imported with distinct := sameNames ▸ imported.distinct, columns := ?_ }
      intro column member
      rcases mem_of_mem_modifyByKey member with kept | ⟨old, oldMem, rfl⟩
      · exact imported.columns column kept
      · exact (imported.columns old oldMem).steps (steps old)
  | state kind several named =>
      refine { imported with constraints := ?_ }
      intro constraint member
      rcases List.mem_append.mp member with earlier | last
      · exact imported.constraints constraint earlier
      · rw [List.mem_singleton.mp last]
        refine ⟨?_, several, fun name present empty => named (empty ▸ present)⟩
        cases kind <;> simp

theorem Table.Imported.steps {before after : Table} (imported : before.Imported)
    (steps : Table.Steps before after) : after.Imported := by
  induction steps with
  | refl => exact imported
  | tail _ step ih => exact ih.step step

theorem Table.imported_of_applyElements {dialect : Dialect} {before after : Table}
    {elements : List Ddl.TableElement} {warnings : List Ddl.Warning} (imported : before.Imported)
    (applied : Ddl.applyElements dialect before elements = .ok (after, warnings)) :
    after.Imported := by
  refine Ddl.applyElements_keeps (fun _ table => table.Imported) [] ?_
    imported applied
  intro _ table element next imported step
  cases step with
  | defines read =>
      exact imported.put ((Column.imported_columnOfType ..).steps (Ddl.steps_of_readColumn read))
  | changes _ steps => exact imported.steps steps

/-! ## Schemas -/

/-- The tables of an imported schema have distinct names. -/
structure Schema.Imported (schema : Schema) : Prop where
  distinct : (schema.tables.map Table.name).Nodup
  tables : ∀ table ∈ schema.tables, table.Imported

/-- An imported table may take the place of the one that has its name. -/
theorem Schema.Imported.put {tables : List Table} (imported : Schema.Imported { tables })
    {table : Table} (new : table.Imported) :
    Schema.Imported { tables := putByKey Table.name table tables } where
  distinct := nodup_putByKey imported.distinct
  tables other member := by
    rcases mem_of_mem_putByKey member with rfl | member
    · exact new
    · exact imported.tables other member

theorem Schema.Imported.step {dialect : Dialect} {tables next : List Table}
    {statement : Ddl.Statement} (imported : Schema.Imported { tables })
    (step : Ddl.Statement.Step dialect tables statement next) :
    Schema.Imported { tables := next } := by
  cases step with
  | defines applied =>
      exact imported.put (Table.imported_of_applyElements (Table.imported_emptyTable _) applied)
  | indexes found =>
      have known := imported.tables _ (List.mem_of_find?_eq_some found)
      exact imported.put (known.steps (Ddl.steps_constrain ..))
  | lacksTable | lacksElements | other => exact imported

/-- Every schema that is imported has the form, whatever the script is. -/
theorem Ddl.imported_of_importStatements {dialect : Dialect} {statements : List Statement}
    {schema : Schema} {warnings : List Warning}
    (found : importStatements dialect statements = .ok (schema, warnings)) : schema.Imported := by
  obtain ⟨⟨tables, stated⟩, run, result⟩ := exists_of_bind_eq_ok found
  cases result
  have start : Schema.Imported { tables := [] } := ⟨List.nodup_nil, List.forall_mem_nil _⟩
  exact applyStatements_keeps (fun _ tables => Schema.Imported { tables }) []
    (fun imported step => imported.step step) start run

section Shop

/-- The statements of a script that defines a table twice and repeats a column. -/
def shopStatements : List Ddl.Statement :=
  let orders : Ddl.ObjectName := { schema := some "sales".toList, name := "orders".toList }
  [.createTable orders (some [.column "id".toList "INT".toList []]),
   .createTable { name := "stock".toList } none,
   .createTable orders (some [
     .column "id".toList "BIGSERIAL".toList [.primaryKey, .autoIncrement],
     .column "at".toList "DATE".toList [],
     .column "at".toList "TIMESTAMPTZ".toList [.notNull, .unique, .unique],
     .foreignKey ["item".toList] none,
     .unique ["id".toList, "at".toList],
     .primaryKey ["id".toList]]),
   .other,
   .createIndex orders ["at".toList],
   .createIndex orders ["at".toList, [], "id".toList]]

/-- The schema of the script. -/
def shop : Schema where
  tables := [{
    name := "orders".toList
    columns := [
      { name := "id".toList
        type := .simple "int".toList none false
        constraints := [.autoIncrement, .primaryKey] },
      { name := "at".toList
        type := .simple "datetime".toList none false
        constraints := [.unique, .index]
        annotations := [{ name := "format".toList, value := "tz".toList }] }]
    constraints := [
      { kind := .unique, columns := ["id".toList, "at".toList] },
      { kind := .index, columns := ["at".toList, "id".toList] }]
    annotations := [{ name := "schema".toList, value := "sales".toList }]
    metadata := ["@schema: sales".toList] }]

theorem importStatements_shopStatements :
    Ddl.importStatements .postgresql shopStatements =
      .ok (shop, [.missingColumnList, .unresolvedForeignKey "orders".toList]) := by
  decide

end Shop

theorem Ddl.imported_of_importStatements_shop :
    importStatements .postgresql shopStatements =
      .ok (shop, [.missingColumnList, .unresolvedForeignKey "orders".toList]) ∧ shop.Imported :=
  ⟨importStatements_shopStatements,
    imported_of_importStatements importStatements_shopStatements⟩

end SchemaNotation
