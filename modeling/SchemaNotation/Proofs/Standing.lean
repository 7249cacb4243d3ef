import SchemaNotation.Proofs.ImportStep
import Mathlib.Data.List.Induction

/-!
# The definitions that stand

An import keeps one table for each bare name, at the place of the first definition with
that name and as the last one defines it.  Nothing is lost exactly when the bare names
are distinct.  The schema that qualifies a name does not tell two tables apart, and an
index reaches the table of its bare name whatever schema it names.
-/

namespace SchemaNotation

/-! ## Indexed tables -/

/-- The column, with an index on it or without. -/
def Column.IndexedFrom (defined indexed : Column) : Prop :=
  indexed = defined ∨ indexed = defined.addConstraint .index

theorem Column.addConstraint_addConstraint (column : Column) (constraint : Constraint) :
    (column.addConstraint constraint).addConstraint constraint = column.addConstraint constraint := by
  have present : (column.addConstraint constraint).constraints.contains constraint = true := by
    rw [addConstraint]
    split
    · assumption
    · simp
  rw [addConstraint, if_pos present]

theorem Column.IndexedFrom.index {defined indexed : Column} (indexing : IndexedFrom defined indexed) :
    IndexedFrom defined (indexed.addConstraint .index) := by
  rcases indexing with rfl | rfl
  · exact Or.inr rfl
  · exact Or.inr (defined.addConstraint_addConstraint .index)

/-- The table with indexes on it: some of its columns have one each, and others stand
behind its constraints. -/
structure Table.IndexedFrom (defined indexed : Table) : Prop where
  rest : ∃ columns constraints, indexed = { defined with columns, constraints }
  columns : List.Forall₂ Column.IndexedFrom defined.columns indexed.columns
  constraints : ∃ added, indexed.constraints = defined.constraints ++ added ∧
    ∀ constraint ∈ added, constraint.kind = .index

theorem Table.IndexedFrom.refl (table : Table) : IndexedFrom table table where
  rest := ⟨table.columns, table.constraints, rfl⟩
  columns := List.forall₂_same.mpr fun _ _ => Or.inl rfl
  constraints := ⟨[], (List.append_nil _).symm, List.forall_mem_nil _⟩

theorem Table.IndexedFrom.index {defined indexed : Table} (indexing : IndexedFrom defined indexed)
    (columns : List Text) :
    IndexedFrom defined (Ddl.constrain .index .index columns indexed).1 := by
  obtain ⟨⟨_, _, rfl⟩, eachColumn, added, stated, kinds⟩ := indexing
  unfold Ddl.constrain
  split
  · exact ⟨⟨_, _, rfl⟩, eachColumn, added, stated, kinds⟩
  · rw [Ddl.changeColumn_fst]
    refine ⟨⟨_, _, rfl⟩, ?_, added, stated, kinds⟩
    exact forall₂_modifyByKey eachColumn fun _ _ indexing => indexing.index
  · let stating : TableConstraint := { kind := .index, columns := Ddl.realNames columns }
    refine ⟨⟨_, _, rfl⟩, eachColumn, added ++ [stating], ?_, ?_⟩
    · rw [← List.append_assoc, ← stated]
    · intro constraint member
      rcases List.mem_append.mp member with earlier | last
      · exact kinds constraint earlier
      · rw [List.mem_singleton.mp last]

namespace Ddl

/-! ## Definitions -/

/-- The definition of a table by a list of elements. -/
structure Definition where
  name : ObjectName
  elements : List TableElement
  deriving DecidableEq, Repr

namespace Definition

/-- The name of the table without its schema. -/
def bareName (definition : Definition) : Text :=
  definition.name.name

/-- The name of the table with its schema. -/
def qualifiedName (definition : Definition) : Option Text × Text :=
  (definition.name.qualifier?, definition.name.name)

/-- The names of the columns, each where it comes first. -/
def columnNames (definition : Definition) : List Text :=
  (definition.elements.filterMap TableElement.columnName?).eraseDups

/-- The definition as a statement. -/
def statement (definition : Definition) : Statement :=
  .createTable definition.name (some definition.elements)

end Definition

/-- The definition that a statement gives. -/
def Statement.definition? : Statement → Option Definition
  | .createTable name (some elements) => some { name, elements }
  | _ => none

/-- The definitions of a script, in order. -/
def definitions (statements : List Statement) : List Definition :=
  statements.filterMap Statement.definition?

/-- The definitions that stand: a later one takes the place of an earlier one with the
same bare name. -/
def standing (definitions : List Definition) : List Definition :=
  definitions.foldl (fun kept definition => putByKey Definition.bareName definition kept) []

theorem standing_append (definitions : List Definition) (definition : Definition) :
    standing (definitions ++ [definition]) =
      putByKey Definition.bareName definition (standing definitions) := by
  rw [standing, List.foldl_append]
  rfl

theorem nodup_standing (definitions : List Definition) :
    ((standing definitions).map Definition.bareName).Nodup := by
  induction definitions using List.reverseRecOn with
  | nil => exact List.nodup_nil
  | append_singleton definitions definition ih =>
      rw [standing_append]
      exact nodup_putByKey ih

/-- All definitions stand exactly when their bare names are distinct. -/
theorem standing_eq_self_iff (definitions : List Definition) :
    standing definitions = definitions ↔ (definitions.map Definition.bareName).Nodup := by
  constructor
  · intro same
    exact same ▸ nodup_standing definitions
  · intro distinct
    induction definitions using List.reverseRecOn with
    | nil => rfl
    | append_singleton definitions definition ih =>
        rw [List.map_append, List.map_singleton] at distinct
        have fresh := List.disjoint_of_nodup_append distinct
        rw [standing_append, ih (List.Nodup.of_append_left distinct), putByKey_of_not_mem]
        exact fun member => fresh member (List.mem_singleton_self _)

/-! ## The tables of the definitions -/

/-- The columns of a table are named by the elements of its definition. -/
theorem map_name_applyElements {dialect : Dialect} {name : ObjectName}
    {elements : List TableElement} {defined : Table} {warnings : List Warning}
    (applied : applyElements dialect (emptyTable name) elements = .ok (defined, warnings)) :
    defined.columns.map Column.name =
      (elements.filterMap TableElement.columnName?).eraseDups := by
  refine applyElements_keeps
    (fun seen table => table.columns.map Column.name =
      (seen.filterMap TableElement.columnName?).eraseDups) [] ?_ ?_ applied
  · intro seen table element next known step
    rw [List.filterMap_append]
    cases step with
    | defines read =>
        rw [map_key_putByKey known, (steps_of_readColumn read).name_eq]
        rfl
    | changes noColumn steps =>
        rw [steps.map_name, known]
        simp [noColumn]
  · rw [emptyTable]
    split <;> rfl

/-- The elements of a definition say nothing about what stands above its table. -/
theorem eq_of_applyElements {dialect : Dialect} {before after : Table}
    {elements : List TableElement} {warnings : List Warning}
    (applied : applyElements dialect before elements = .ok (after, warnings)) :
    ∃ columns constraints, after = { before with columns, constraints } := by
  refine applyElements_keeps
    (fun _ table => ∃ columns constraints, table = { before with columns, constraints }) []
    ?_ ⟨before.columns, before.constraints, rfl⟩ applied
  rintro _ _ element next ⟨columns, constraints, rfl⟩ step
  cases step with
  | defines read => exact ⟨_, _, rfl⟩
  | changes _ steps =>
      obtain ⟨columns, constraints, rfl⟩ := steps.eq
      exact ⟨columns, constraints, rfl⟩

/-- The table that a definition yields.  It has the name of the definition, the schema
that qualifies it and its columns, and it is the table that the definition yields alone,
with indexes on it or without. -/
structure Definition.Yields (dialect : Dialect) (definition : Definition) (table : Table) :
    Prop where
  name : table.name = definition.bareName
  annotations : table.annotations =
    (definition.name.qualifier?.map fun schema =>
      { name := "schema".toList, value := schema }).toList
  columnNames : table.columns.map Column.name = definition.columnNames
  alone : ∃ defined warnings, importStatements dialect [definition.statement] =
    .ok ({ tables := [defined] }, warnings) ∧ Table.IndexedFrom defined table

variable {dialect : Dialect}

theorem Definition.yields_of_applyElements {definition : Definition} {table : Table}
    {warnings : List Warning}
    (applied : applyElements dialect (emptyTable definition.name) definition.elements =
      .ok (table, warnings)) : definition.Yields dialect table := by
  have alone : importStatements dialect [definition.statement] =
      .ok ({ tables := [table] }, warnings ++ []) := by
    simp only [importStatements, applyStatements, Definition.statement, Statement.apply, applied]
    rfl
  have columnNames := map_name_applyElements applied
  obtain ⟨columns, constraints, rfl⟩ := eq_of_applyElements applied
  refine ⟨?_, ?_, columnNames, _, _, alone, .refl _⟩
  · dsimp only [emptyTable]
    split <;> rfl
  · dsimp only [emptyTable]
    cases definition.name.qualifier? <;> rfl

theorem Definition.Yields.index {definition : Definition} {table : Table}
    (yields : definition.Yields dialect table) (columns : List Text) :
    definition.Yields dialect (constrain .index .index columns table).1 := by
  have steps := steps_constrain .index .index columns table
  obtain ⟨otherColumns, otherConstraints, same⟩ := steps.eq
  obtain ⟨defined, warnings, alone, indexing⟩ := yields.alone
  refine ⟨?_, ?_, steps.map_name.trans yields.columnNames, defined, warnings, alone,
    indexing.index columns⟩
  · rw [same]
    exact yields.name
  · rw [same]
    exact yields.annotations

/-! ## Scripts -/

/-- An index reaches the table with the bare name of its target. -/
theorem forall₂_index {source : Type} {relation : source → Table → Prop} {sources : List source}
    {tables : List Table} {table : Table} {target : ObjectName} (columns : List Text)
    (related : List.Forall₂ relation sources tables)
    (found : tables.find? (·.name == target.name) = some table)
    (kept : ∀ source, relation source table →
      relation source (constrain .index .index columns table).1) :
    List.Forall₂ relation sources
      (putByKey Table.name (constrain .index .index columns table).1 tables) := by
  have sameName : (constrain .index .index columns table).1.name = target.name :=
    (steps_constrain ..).name_eq.trans (key_of_find? found)
  refine forall₂_putByKey related ?_ kept
  rw [sameName]
  exact found

theorem yields_of_applyStatements {statements : List Statement} {tables : List Table}
    {warnings : List Warning}
    (run : applyStatements dialect [] statements = .ok (tables, warnings)) :
    List.Forall₂ (Definition.Yields dialect) (standing (definitions statements)) tables := by
  refine applyStatements_keeps
    (fun seen tables =>
      List.Forall₂ (Definition.Yields dialect) (standing (definitions seen)) tables)
    [] ?_ .nil run
  intro seen tables statement next related step
  rw [definitions, List.filterMap_append, ← definitions]
  cases step with
  | @defines name elements table _ applied =>
      have new : Definition.Yields dialect { name, elements } table :=
        Definition.yields_of_applyElements applied
      rw [show List.filterMap Statement.definition? [.createTable name (some elements)] =
        [{ name, elements }] from rfl, standing_append]
      exact forall₂_putByKey_both related new fun _ _ yields => yields.name.symm
  | indexes found =>
      rw [show List.filterMap Statement.definition? [.createIndex _ _] = [] from rfl,
        List.append_nil]
      exact forall₂_index _ related found fun _ yields => yields.index _
  | lacksTable | lacksElements | other =>
      rw [show List.filterMap Statement.definition? [_] = [] from rfl, List.append_nil]
      exact related

/-- Statements that follow others are applied to the tables of those. -/
theorem applyStatements_append {first : List Statement} {tables middle : List Table}
    {warnings : List Warning}
    (firstRun : applyStatements dialect tables first = .ok (middle, warnings))
    (second : List Statement) :
    applyStatements dialect tables (first ++ second) =
      (applyStatements dialect middle second).map fun (final, stated) =>
        (final, warnings ++ stated) := by
  induction first generalizing tables warnings with
  | nil =>
      cases firstRun
      exact (congrFun Except.map_id _).symm
  | cons statement first ih =>
      obtain ⟨⟨next, stated⟩, step, rest⟩ := exists_of_bind_eq_ok firstRun
      dsimp only at rest
      obtain ⟨⟨last, others⟩, later, result⟩ := exists_of_bind_eq_ok rest
      cases result
      rw [List.cons_append, applyStatements, step]
      dsimp only [bind, Except.bind]
      rw [ih later]
      dsimp only
      cases applyStatements dialect last second with
      | error fault => rfl
      | ok final =>
          exact congrArg (fun all => Except.ok (final.1, all)) (List.append_assoc ..).symm

theorem applyStatements_append_eq_ok {first second : List Statement}
    {tables middle final : List Table} {firstWarnings secondWarnings : List Warning}
    (firstRun : applyStatements dialect tables first = .ok (middle, firstWarnings))
    (secondRun : applyStatements dialect middle second = .ok (final, secondWarnings)) :
    applyStatements dialect tables (first ++ second) =
      .ok (final, firstWarnings ++ secondWarnings) := by
  rw [applyStatements_append firstRun, secondRun]
  rfl

/-- An index is always applied, and changes no table but those with the bare name of its
target. -/
theorem exists_applyStatements_index (tables : List Table) (target : ObjectName)
    (columns : List Text) :
    ∃ indexed warnings,
      applyStatements dialect tables [.createIndex target columns] = .ok (indexed, warnings) ∧
      List.Forall₂ (fun before after => before.name = target.name ∨ after = before)
        tables indexed := by
  have unchanged : List.Forall₂ (fun before after => before.name = target.name ∨ after = before)
      tables tables := List.forall₂_same.mpr fun _ _ => Or.inr rfl
  cases found : tables.find? (·.name == target.name) with
  | none =>
      refine ⟨tables, [.unknownTable], ?_, unchanged⟩
      simp only [applyStatements, Statement.apply, found]
      rfl
  | some table =>
      refine ⟨putByKey Table.name (constrain .index .index columns table).1 tables,
        (constrain .index .index columns table).2 ++ [], ?_,
        forall₂_index columns unchanged found ?_⟩
      · simp only [applyStatements, Statement.apply, found]
        rfl
      · rintro source (same | rfl)
        · exact Or.inl same
        · exact Or.inl (key_of_find? found)

/-- An import yields a table for each definition that stands, in order, and all of them
stand exactly when their bare names are distinct.  An index that follows changes no table
but the one with the bare name of its target. -/
theorem imports_by_bareName {statements : List Statement} {schema : Schema}
    {warnings : List Warning}
    (found : importStatements dialect statements = .ok (schema, warnings)) :
    List.Forall₂ (Definition.Yields dialect) (standing (definitions statements)) schema.tables ∧
    (standing (definitions statements) = definitions statements ↔
      ((definitions statements).map Definition.bareName).Nodup) ∧
    ∀ target columns, ∃ indexed stated,
      importStatements dialect (statements ++ [.createIndex target columns]) =
        .ok (indexed, stated) ∧
      List.Forall₂ (fun before after => before.name = target.name ∨ after = before)
        schema.tables indexed.tables := by
  obtain ⟨⟨tables, stated⟩, run, result⟩ := exists_of_bind_eq_ok found
  cases result
  refine ⟨yields_of_applyStatements run, standing_eq_self_iff _, ?_⟩
  intro target columns
  obtain ⟨indexed, more, step, unchanged⟩ := exists_applyStatements_index tables target columns
  refine ⟨{ tables := indexed }, warnings ++ more, ?_, unchanged⟩
  rw [importStatements, applyStatements_append_eq_ok run step]
  rfl

section Namesakes

/-- Two tables whose names differ only in the schema, and an index on one of a third
schema. -/
def namesakeStatements : List Statement :=
  [.createTable { schema := some "a".toList, name := "t".toList }
     (some [.column "x".toList "INT".toList []]),
   .createTable { schema := some "b".toList, name := "t".toList }
     (some [.column "y".toList "INT".toList []]),
   .createIndex { schema := some "c".toList, name := "t".toList } ["y".toList]]

/-- The schema of the statements. -/
def namesake : Schema where
  tables := [{
    name := "t".toList
    columns := [{
      name := "y".toList
      type := .simple "int".toList none false
      nullable := true
      constraints := [.index] }]
    annotations := [{ name := "schema".toList, value := "b".toList }]
    metadata := ["@schema: b".toList] }]

theorem importStatements_namesakeStatements :
    importStatements .postgresql namesakeStatements = .ok (namesake, []) := by
  decide

end Namesakes

theorem imports_by_bareName_namesake :
    importStatements .postgresql namesakeStatements = .ok (namesake, []) ∧
    List.Forall₂ (Definition.Yields .postgresql) (standing (definitions namesakeStatements))
      namesake.tables ∧
    ∀ target columns, ∃ indexed stated,
      importStatements .postgresql (namesakeStatements ++ [.createIndex target columns]) =
        .ok (indexed, stated) ∧
      List.Forall₂ (fun before after => before.name = target.name ∨ after = before)
        namesake.tables indexed.tables := by
  obtain ⟨yields, _, indexes⟩ := imports_by_bareName importStatements_namesakeStatements
  exact ⟨importStatements_namesakeStatements, yields, indexes⟩

/-- Distinct qualified names do not keep a table: the second of two namesakes takes the
place of the first, and an index on a third one reaches it. -/
theorem qualified_table_lost :
    ((definitions namesakeStatements).map Definition.qualifiedName).Nodup ∧
    (∃ schema, importStatements .postgresql namesakeStatements = .ok (schema, []) ∧
      schema.tables.length < (definitions namesakeStatements).length ∧
      ∃ table ∈ schema.tables, table.schemaName? = some "b".toList ∧
        ∃ column ∈ table.columns, .index ∈ column.constraints) := by
  refine ⟨by decide +kernel, namesake, importStatements_namesakeStatements, by decide +kernel, ?_⟩
  exact ⟨_, List.mem_singleton_self _, by decide +kernel, _, List.mem_singleton_self _,
    List.mem_singleton_self _⟩

end Ddl

end SchemaNotation
