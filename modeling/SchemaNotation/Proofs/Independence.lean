import SchemaNotation.Proofs.Standing

/-!
# Scripts about other tables

A statement reaches tables by their bare name only.  Statements that name none of the
tables that stand already leave them in front, as they are, and do with the tables
behind them what they would do alone.
-/

namespace SchemaNotation.Ddl

/-! ## What a statement is about -/

/-- The bare name of the table that a statement is about. -/
def Statement.target? : Statement → Option Text
  | .createTable name _ => some name.name
  | .createIndex target _ => some target.name
  | .other => none

/-- A statement that names none of the tables. -/
def Statement.SparesAll (tables : List Table) (statement : Statement) : Prop :=
  ∀ name ∈ statement.target?, name ∉ tables.map Table.name

/-- The outcome of statements with further tables in front. -/
def behind (front : List Table) (outcome : Except ImportError (List Table × List Warning)) :
    Except ImportError (List Table × List Warning) :=
  outcome.map fun (tables, warnings) => (front ++ tables, warnings)

variable {dialect : Dialect} {front tables : List Table}

/-! ## The tables in front -/

/-- A statement does not reach the tables in front that it does not name. -/
theorem Statement.apply_behind {statement : Statement} (spares : statement.SparesAll front) :
    statement.apply dialect (front ++ tables) = behind front (statement.apply dialect tables) := by
  cases statement with
  | createTable name elements? =>
      cases elements? with
      | none => rfl
      | some elements =>
          dsimp only [apply]
          cases applied : applyElements dialect (emptyTable name) elements with
          | error fault => rfl
          | ok defined =>
              obtain ⟨table, warnings⟩ := defined
              have yields : Definition.Yields dialect { name, elements } table :=
                Definition.yields_of_applyElements applied
              have sameName : table.name = name.name := yields.name
              have fresh : table.name ∉ front.map Table.name := by
                rw [sameName]
                exact spares name.name rfl
              exact congrArg (fun all => Except.ok (all, warnings)) (putByKey_append fresh tables)
  | createIndex target columns =>
      have fresh : target.name ∉ front.map Table.name := spares target.name rfl
      dsimp only [apply]
      rw [find?_key_append fresh]
      cases found : tables.find? (·.name == target.name) with
      | none => rfl
      | some table =>
          have sameName : (constrain .index .index columns table).1.name = target.name :=
            (steps_constrain ..).name_eq.trans (key_of_find? found)
          rw [← sameName] at fresh
          exact congrArg (fun all => Except.ok (all, _)) (putByKey_append fresh tables)
  | other => rfl

/-- Statements do not reach the tables in front that none of them names. -/
theorem applyStatements_behind {statements : List Statement}
    (spare : ∀ statement ∈ statements, statement.SparesAll front) :
    applyStatements dialect (front ++ tables) statements =
      behind front (applyStatements dialect tables statements) := by
  induction statements generalizing tables with
  | nil => rfl
  | cons statement statements ih =>
      rw [List.forall_mem_cons] at spare
      rw [applyStatements, applyStatements, Statement.apply_behind spare.1]
      cases statement.apply dialect tables with
      | error fault => rfl
      | ok step =>
          obtain ⟨next, first⟩ := step
          dsimp only [behind, Except.map, bind, Except.bind]
          rw [ih spare.2]
          cases applyStatements dialect next statements <;> rfl

/-! ## The tables of a script -/

theorem mem_of_mem_standing {definitions : List Definition} {definition : Definition}
    (member : definition ∈ standing definitions) : definition ∈ definitions := by
  induction definitions using List.reverseRecOn with
  | nil => cases member
  | append_singleton definitions last ih =>
      rw [standing_append] at member
      rcases mem_of_mem_putByKey member with rfl | earlier
      · exact List.mem_append_right definitions (List.mem_singleton_self _)
      · exact List.mem_append_left _ (ih earlier)

/-- Every table of a script is defined in it. -/
theorem name_mem_of_applyStatements {statements : List Statement} {warnings : List Warning}
    (run : applyStatements dialect [] statements = .ok (tables, warnings)) :
    tables.map Table.name ⊆ (definitions statements).map Definition.bareName := by
  intro name member
  obtain ⟨table, tableMem, rfl⟩ := List.mem_map.mp member
  obtain ⟨definition, stands, yields⟩ :=
    exists_of_forall₂ (yields_of_applyStatements run) tableMem
  rw [yields.name]
  exact List.mem_map_of_mem (mem_of_mem_standing stands)

/-- A script whose statements name no table that the script before it defines is imported
as it is alone: its tables follow those of the first script, and its warnings follow the
warnings of the first. -/
theorem imports_in_turn {first second : List Statement} {schema : Schema}
    {warnings : List Warning}
    (apart : ∀ statement ∈ second, ∀ name ∈ statement.target?,
      name ∉ (definitions first).map Definition.bareName)
    (found : importStatements dialect first = .ok (schema, warnings)) :
    (∀ other stated, importStatements dialect second = .ok (other, stated) →
      importStatements dialect (first ++ second) =
        .ok ({ tables := schema.tables ++ other.tables }, warnings ++ stated)) ∧
    ∀ fault, importStatements dialect second = .error fault →
      importStatements dialect (first ++ second) = .error fault := by
  obtain ⟨⟨tables, firstWarnings⟩, run, result⟩ := exists_of_bind_eq_ok found
  cases result
  have spare : ∀ statement ∈ second, statement.SparesAll tables := by
    intro statement member name isTarget stands
    exact apart statement member name isTarget (name_mem_of_applyStatements run stands)
  have alone : applyStatements dialect (tables ++ []) second =
      behind tables (applyStatements dialect [] second) := applyStatements_behind spare
  rw [List.append_nil] at alone
  have whole := applyStatements_append run second
  rw [alone] at whole
  constructor
  · intro other stated read
    obtain ⟨⟨others, otherWarnings⟩, otherRun, result⟩ := exists_of_bind_eq_ok read
    cases result
    rw [importStatements, whole, otherRun]
    rfl
  · intro fault failed
    rcases error_of_bind_eq_error failed with failing | ⟨_, _, never⟩
    · rw [importStatements, whole, failing]
      rfl
    · cases never

section Ledger

/-- A script with an index on a table that it does not define. -/
def orderStatements : List Statement :=
  [.createTable { name := "orders".toList } (some
     [.column "id".toList "INT".toList [.primaryKey], .unique ["number".toList]]),
   .createIndex { name := "orders".toList } ["id".toList],
   .createIndex { name := "lines".toList } ["id".toList]]

/-- A script that defines this table. -/
def lineStatements : List Statement :=
  [.createTable { schema := some "sales".toList, name := "lines".toList } (some
     [.column "id".toList "INT".toList [.notNull]]),
   .createTable { name := "views".toList } none,
   .createIndex { name := "lines".toList } ["id".toList]]

/-- The schema of the first script. -/
def orderSchema : Schema where
  tables := [{
    name := "orders".toList
    columns := [{
      name := "id".toList
      type := .simple "int".toList none false
      constraints := [.primaryKey, .index] }] }]

/-- The schema of the second script. -/
def lineSchema : Schema where
  tables := [{
    name := "lines".toList
    columns := [{
      name := "id".toList
      type := .simple "int".toList none false
      constraints := [.index] }]
    annotations := [{ name := "schema".toList, value := "sales".toList }]
    metadata := ["@schema: sales".toList] }]

theorem importStatements_orderStatements :
    importStatements .mysql orderStatements =
      .ok (orderSchema, [.unknownColumn "orders".toList "number".toList, .unknownTable]) := by
  decide

theorem importStatements_lineStatements :
    importStatements .mysql lineStatements = .ok (lineSchema, [.missingColumnList]) := by
  decide

end Ledger

theorem imports_in_turn_lines :
    (∀ statement ∈ lineStatements, ∀ name ∈ statement.target?,
      name ∉ (definitions orderStatements).map Definition.bareName) ∧
    importStatements .mysql (orderStatements ++ lineStatements) =
      .ok ({ tables := orderSchema.tables ++ lineSchema.tables },
        [.unknownColumn "orders".toList "number".toList, .unknownTable] ++
          [.missingColumnList]) := by
  have apart : ∀ statement ∈ lineStatements, ∀ name ∈ statement.target?,
      name ∉ (definitions orderStatements).map Definition.bareName := by
    decide +kernel
  have turn := imports_in_turn apart importStatements_orderStatements
  exact ⟨apart, turn.1 lineSchema _ importStatements_lineStatements⟩

end SchemaNotation.Ddl
