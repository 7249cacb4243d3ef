import SchemaNotation.Proofs.Keyed
import SchemaNotation.Proofs.Outcome
import Mathlib.Logic.Relation

/-!
# One statement at a time

What a statement does to the tables before it, and what an element of a definition does to
its table, as relations.  A definition puts a table that has grown from an empty one, an
index changes one table, and every change of a table comes down to a few steps on its
columns and its constraints.
-/

namespace SchemaNotation

/-! ## Columns -/

deriving instance ReflBEq, LawfulBEq for ForeignKey

deriving instance ReflBEq, LawfulBEq for Constraint

/-- What a single step changes about a column. -/
inductive Column.Step : Column → Column → Prop where
  | constrain (column : Column) (constraint : Constraint) :
      Step column (column.addConstraint constraint)
  | allowNull (column : Column) (nullable : Bool) : Step column { column with nullable }

/-- Steps on a column, one after the other. -/
abbrev Column.Steps : Column → Column → Prop :=
  Relation.ReflTransGen Column.Step

theorem Column.Steps.addConstraint (constraint : Constraint) (column : Column) :
    Column.Steps column (column.addConstraint constraint) :=
  .single (.constrain column constraint)

theorem Column.Steps.joinPrimaryKey (column : Column) : Column.Steps column column.joinPrimaryKey :=
  (addConstraint .primaryKey column).tail (.allowNull _ false)

/-- The steps on a column leave everything but its constraints and its nullability as it
is. -/
theorem Column.Steps.eq {before after : Column} (steps : Column.Steps before after) :
    ∃ constraints nullable, after = { before with constraints, nullable } := by
  induction steps with
  | refl => exact ⟨before.constraints, before.nullable, rfl⟩
  | tail _ step ih =>
      obtain ⟨constraints, nullable, rfl⟩ := ih
      cases step with
      | constrain constraint =>
          rw [Column.addConstraint]
          split
          · exact ⟨constraints, nullable, rfl⟩
          · exact ⟨constraints ++ [constraint], nullable, rfl⟩
      | allowNull nullable => exact ⟨constraints, nullable, rfl⟩

theorem Column.Steps.name_eq {before after : Column} (steps : Column.Steps before after) :
    after.name = before.name := by
  obtain ⟨constraints, nullable, rfl⟩ := steps.eq
  rfl

theorem Column.name_addConstraint (constraint : Constraint) (column : Column) :
    (column.addConstraint constraint).name = column.name :=
  (Column.Steps.addConstraint constraint column).name_eq

theorem Column.name_joinPrimaryKey (column : Column) : column.joinPrimaryKey.name = column.name :=
  (Column.Steps.joinPrimaryKey column).name_eq

namespace Ddl

variable {dialect : Dialect}

theorem ColumnClause.steps_of_apply {column changed : Column} {clause : ColumnClause}
    (applied : clause.apply column = .ok changed) : Column.Steps column changed := by
  cases clause with
  | primaryKey =>
      cases applied
      exact Column.Steps.joinPrimaryKey column
  | notNull | nullable =>
      cases applied
      exact .single (.allowNull column _)
  | unique | autoIncrement =>
      cases applied
      exact Column.Steps.addConstraint _ column
  | defaultValue value =>
      cases value with
      | none => cases applied
      | some value =>
          cases applied
          exact Column.Steps.addConstraint _ column
  | references target =>
      dsimp only [apply] at applied
      split at applied
      · cases applied
        exact Column.Steps.addConstraint _ column
      · cases applied
        exact .refl
  | nameOnly => cases applied
  | other =>
      cases applied
      exact .refl

/-- The clauses of a column only take steps from what its type makes of it. -/
theorem steps_of_readColumn {name type : Text} {clauses : List ColumnClause} {definition : Column}
    (read : readColumn dialect name type clauses = .ok definition) :
    Column.Steps (columnOfType dialect name type) definition := by
  unfold readColumn at read
  generalize columnOfType dialect name type = column at read ⊢
  induction clauses generalizing column with
  | nil =>
      cases read
      exact .refl
  | cons clause clauses ih =>
      rw [List.foldlM_cons] at read
      obtain ⟨changed, applied, read⟩ := exists_of_bind_eq_ok read
      exact (ColumnClause.steps_of_apply applied).trans (ih changed read)

end Ddl

/-! ## Tables -/

/-- The table with a definition of a column, in the place of the one that has its name. -/
def Table.define (table : Table) (definition : Column) : Table :=
  { table with columns := putByKey Column.name definition table.columns }

/-- What a single step changes about a table that keeps its columns. -/
inductive Table.Step : Table → Table → Prop where
  | change (table : Table) (name : Text) {change : Column → Column}
      (steps : ∀ column, Column.Steps column (change column)) :
      Step table { table with columns := modifyByKey Column.name name change table.columns }
  | state (table : Table) (kind : TableConstraint.Kind) {columns : List Text}
      (several : 2 ≤ columns.length) (named : [] ∉ columns) :
      Step table { table with constraints := table.constraints ++ [{ kind, columns }] }

/-- Steps on a table, one after the other. -/
abbrev Table.Steps : Table → Table → Prop :=
  Relation.ReflTransGen Table.Step

/-- The steps on a table leave everything but its columns and its constraints as it is. -/
theorem Table.Steps.eq {before after : Table} (steps : Table.Steps before after) :
    ∃ columns constraints, after = { before with columns, constraints } := by
  induction steps with
  | refl => exact ⟨before.columns, before.constraints, rfl⟩
  | tail _ step ih =>
      obtain ⟨columns, constraints, rfl⟩ := ih
      cases step with
      | change | state => exact ⟨_, _, rfl⟩

theorem Table.Steps.name_eq {before after : Table} (steps : Table.Steps before after) :
    after.name = before.name := by
  obtain ⟨_, _, rfl⟩ := steps.eq
  rfl

theorem Table.Steps.map_name {before after : Table} (steps : Table.Steps before after) :
    after.columns.map Column.name = before.columns.map Column.name := by
  induction steps with
  | refl => rfl
  | tail _ step ih =>
      rw [← ih]
      cases step with
      | change name steps => exact map_key_modifyByKey fun column => (steps column).name_eq
      | state => rfl

namespace Ddl

variable {dialect : Dialect} {table : Table}

theorem nil_not_mem_realNames (names : List Text) : [] ∉ realNames names := by
  simp [realNames]

/-- A change of a column that the table lacks is no change. -/
theorem changeColumn_fst (name : Text) (change : Column → Column) (table : Table) :
    (changeColumn name change table).1 =
      { table with columns := modifyByKey Column.name name change table.columns } := by
  rw [changeColumn]
  split
  · rfl
  · next unknown =>
      have absent : name ∉ table.columns.map Column.name := by
        simpa [Table.column?] using unknown
      rw [modifyByKey_of_not_mem absent]

theorem steps_changeColumn (name : Text) {change : Column → Column}
    (steps : ∀ column, Column.Steps column (change column)) (table : Table) :
    Table.Steps table (changeColumn name change table).1 := by
  rw [changeColumn_fst]
  exact .single (.change table name steps)

theorem steps_changeColumns (names : List Text) {change : Column → Column}
    (steps : ∀ column, Column.Steps column (change column)) (table : Table) :
    Table.Steps table (changeColumns change table names).1 := by
  induction names generalizing table with
  | nil => exact .refl
  | cons name names ih => exact (steps_changeColumn name steps table).trans (ih _)

theorem steps_constrain (kind : TableConstraint.Kind) (constraint : Constraint)
    (columns : List Text) (table : Table) :
    Table.Steps table (constrain kind constraint columns table).1 := by
  have named := nil_not_mem_realNames columns
  unfold constrain
  split
  · exact .refl
  · exact steps_changeColumn _ (Column.Steps.addConstraint constraint) table
  · next filled single =>
      refine .single (.state table kind ?_ named)
      match shape : realNames columns with
      | [] => exact absurd shape filled
      | [column] => exact absurd shape (single column)
      | _ :: _ :: _ => exact Nat.le_add_left 2 _

/-! ## Elements of a definition -/

/-- The name of the column that an element defines. -/
def TableElement.columnName? : TableElement → Option Text
  | .column name _ _ => some name
  | _ => none

/-- The names of the columns that elements define, in order. -/
def columnNames (elements : List TableElement) : List Text :=
  elements.filterMap TableElement.columnName?

/-- What an element of a definition makes of the table before it. -/
inductive TableElement.Step (dialect : Dialect) (table : Table) : TableElement → Table → Prop where
  | defines {name type : Text} {clauses : List ColumnClause} {definition : Column}
      (read : readColumn dialect name type clauses = .ok definition) :
      Step dialect table (.column name type clauses)
        { table with columns := putByKey Column.name definition table.columns }
  | changes {element : TableElement} {changed : Table} (noColumn : element.columnName? = none)
      (steps : Table.Steps table changed) : Step dialect table element changed

/-- A foreign key changes one column, or none when it is not over a single column or has no
target. -/
theorem TableElement.apply_foreignKey (dialect : Dialect) (columns : List Text)
    (target : Option Reference) :
    (∃ name key, realNames columns = [name] ∧ ∀ table,
      (foreignKey columns target).apply dialect table =
        .ok (changeColumn name (·.addConstraint (.foreignKey key)) table)) ∨
    ∀ table, (foreignKey columns target).apply dialect table =
      .ok (table, [.unresolvedForeignKey table.name]) := by
  dsimp only [apply]
  split
  · next name key single _ => exact Or.inl ⟨name, key, single, fun _ => rfl⟩
  · exact Or.inr fun _ => rfl

theorem TableElement.step_of_apply {element : TableElement} {changed : Table}
    {warnings : List Warning} (applied : element.apply dialect table = .ok (changed, warnings)) :
    TableElement.Step dialect table element changed := by
  cases element with
  | column name type clauses =>
      obtain ⟨definition, read, applied⟩ := exists_of_bind_eq_ok applied
      cases applied
      exact .defines read
  | primaryKey columns =>
      obtain ⟨rfl, _⟩ := Prod.mk.inj (Except.ok.inj applied)
      exact .changes rfl (steps_changeColumns _ Column.Steps.joinPrimaryKey table)
  | foreignKey columns target =>
      rcases apply_foreignKey dialect columns target with ⟨name, key, _, changes⟩ | unresolved
      · rw [changes] at applied
        obtain ⟨rfl, _⟩ := Prod.mk.inj (Except.ok.inj applied)
        exact .changes rfl (steps_changeColumn _ (Column.Steps.addConstraint _) table)
      · rw [unresolved] at applied
        cases applied
        exact .changes rfl .refl
  | unique columns =>
      obtain ⟨rfl, _⟩ := Prod.mk.inj (Except.ok.inj applied)
      exact .changes rfl (steps_constrain _ _ _ table)
  | other =>
      cases applied
      exact .changes rfl .refl

/-- What the application of every element keeps of the elements before it and the table, a
whole definition keeps. -/
theorem applyElements_induction (holds : List TableElement → Table → Prop)
    (seen : List TableElement)
    (keeps : ∀ {seen table element next warnings}, holds seen table →
      element.apply dialect table = .ok (next, warnings) → holds (seen ++ [element]) next)
    {elements : List TableElement} {final : Table} {warnings : List Warning}
    (start : holds seen table)
    (run : applyElements dialect table elements = .ok (final, warnings)) :
    holds (seen ++ elements) final := by
  induction elements generalizing seen table warnings with
  | nil =>
      cases run
      rw [List.append_nil]
      exact start
  | cons element elements ih =>
      obtain ⟨⟨next, first⟩, step, run⟩ := exists_of_bind_eq_ok run
      dsimp only at run
      obtain ⟨⟨last, rest⟩, later, result⟩ := exists_of_bind_eq_ok run
      cases result
      have whole := ih _ (keeps start step) later
      rwa [List.append_assoc, List.singleton_append] at whole

/-- What every step of an element keeps of the elements before it and the table, a whole
definition keeps. -/
theorem applyElements_keeps (holds : List TableElement → Table → Prop)
    (seen : List TableElement)
    (keeps : ∀ {seen table element next}, holds seen table →
      TableElement.Step dialect table element next → holds (seen ++ [element]) next)
    {elements : List TableElement} {final : Table} {warnings : List Warning}
    (start : holds seen table)
    (run : applyElements dialect table elements = .ok (final, warnings)) :
    holds (seen ++ elements) final :=
  applyElements_induction holds seen
    (fun held applied => keeps held (TableElement.step_of_apply applied)) start run

/-! ## Statements -/

/-- What a statement makes of the tables before it. -/
inductive Statement.Step (dialect : Dialect) (tables : List Table) :
    Statement → List Table → Prop where
  | defines {name : ObjectName} {elements : List TableElement} {table : Table}
      {warnings : List Warning}
      (applied : applyElements dialect (emptyTable name) elements = .ok (table, warnings)) :
      Step dialect tables (.createTable name (some elements)) (putByKey Table.name table tables)
  | indexes {target : ObjectName} {columns : List Text} {table : Table}
      (found : tables.find? (·.name == target.name) = some table) :
      Step dialect tables (.createIndex target columns)
        (putByKey Table.name (constrain .index .index columns table).1 tables)
  | lacksTable {target : ObjectName} {columns : List Text}
      (absent : tables.find? (·.name == target.name) = none) :
      Step dialect tables (.createIndex target columns) tables
  | lacksElements {name : ObjectName} : Step dialect tables (.createTable name none) tables
  | other : Step dialect tables .other tables

theorem Statement.step_of_apply {statement : Statement} {tables next : List Table}
    {warnings : List Warning} (applied : statement.apply dialect tables = .ok (next, warnings)) :
    Statement.Step dialect tables statement next := by
  cases statement with
  | createTable name elements? =>
      cases elements? with
      | none =>
          cases applied
          exact .lacksElements
      | some elements =>
          obtain ⟨⟨table, stated⟩, defined, applied⟩ := exists_of_bind_eq_ok applied
          cases applied
          exact .defines defined
  | createIndex target columns =>
      dsimp only [apply] at applied
      split at applied
      · next absent =>
          cases applied
          exact .lacksTable absent
      · next found =>
          cases applied
          exact .indexes found
  | other =>
      cases applied
      exact .other

/-- What every statement keeps of the statements and tables before it, a whole script
keeps. -/
theorem applyStatements_keeps (holds : List Statement → List Table → Prop)
    (seen : List Statement)
    (keeps : ∀ {seen tables statement next}, holds seen tables →
      Statement.Step dialect tables statement next → holds (seen ++ [statement]) next)
    {statements : List Statement} {tables final : List Table} {warnings : List Warning}
    (start : holds seen tables)
    (run : applyStatements dialect tables statements = .ok (final, warnings)) :
    holds (seen ++ statements) final := by
  induction statements generalizing seen tables warnings with
  | nil =>
      cases run
      rw [List.append_nil]
      exact start
  | cons statement statements ih =>
      obtain ⟨⟨next, first⟩, step, run⟩ := exists_of_bind_eq_ok run
      dsimp only at run
      obtain ⟨⟨last, rest⟩, later, result⟩ := exists_of_bind_eq_ok run
      cases result
      have whole := ih _ (keeps start (Statement.step_of_apply step)) later
      rwa [List.append_assoc, List.singleton_append] at whole

end Ddl

end SchemaNotation
