import SchemaNotation.Proofs.Standing

/-!
# Nullable columns

Whether an imported column is nullable is decided by the last one to say something about null:
its own clauses in order, and behind them the primary keys of the table that stand behind the
column.  A primary key excludes null, but an explicit null behind it lets null in again.
-/

namespace SchemaNotation

/-! ## Constraints of a column -/

theorem Column.mem_addConstraint {column : Column} {constraint other : Constraint} :
    other ∈ (column.addConstraint constraint).constraints ↔
      other ∈ column.constraints ∨ other = constraint := by
  rw [addConstraint]
  split
  · next present =>
      rw [List.contains_iff_mem] at present
      exact ⟨Or.inl, fun member => member.elim id (· ▸ present)⟩
  · exact List.mem_append.trans (or_congr_right List.mem_singleton)

@[simp] theorem Column.nullable_addConstraint (column : Column) (constraint : Constraint) :
    (column.addConstraint constraint).nullable = column.nullable := by
  rw [addConstraint]
  split <;> rfl

namespace Ddl

/-! ## Clauses of a column -/

/-- What a clause says about null: a key and `NOT NULL` exclude it, an explicit null lets it
in, and other clauses say nothing. -/
def ColumnClause.nullable? : ColumnClause → Option Bool
  | .primaryKey => some false
  | .notNull => some false
  | .nullable => some true
  | _ => none

/-- Whether the clauses of a column leave it nullable.  The last one that says something about
null decides, and a column is nullable when none does. -/
def leaveNullable (clauses : List ColumnClause) : Bool :=
  (clauses.filterMap ColumnClause.nullable?).getLast?.getD true

/-- What a clause leaves of its column, as far as null and the primary key are concerned. -/
theorem ColumnClause.effect_of_apply {column changed : Column} {clause : ColumnClause}
    (applied : clause.apply column = .ok changed) :
    changed.nullable = clause.nullable?.getD column.nullable ∧
      (.primaryKey ∈ changed.constraints ↔
        .primaryKey ∈ column.constraints ∨ clause = .primaryKey) := by
  cases clause with
  | primaryKey =>
      cases applied
      simp [nullable?, Column.joinPrimaryKey, Column.mem_addConstraint]
  | notNull | nullable =>
      cases applied
      simp [nullable?]
  | unique | autoIncrement =>
      cases applied
      simp [nullable?, Column.mem_addConstraint]
  | defaultValue value =>
      cases value with
      | none => cases applied
      | some value =>
          cases applied
          simp [nullable?, Column.mem_addConstraint]
  | references target =>
      dsimp only [apply] at applied
      split at applied <;> cases applied <;> simp [nullable?, Column.mem_addConstraint]
  | nameOnly => cases applied
  | other =>
      cases applied
      simp [nullable?]

theorem leaveNullable_append (clauses : List ColumnClause) (clause : ColumnClause) :
    leaveNullable (clauses ++ [clause]) = clause.nullable?.getD (leaveNullable clauses) := by
  rw [leaveNullable, List.filterMap_append]
  cases said : clause.nullable? with
  | none => simp [said, leaveNullable]
  | some allowed => simp [said]

/-- The verdict on null is that of a clause, unless none says anything about it. -/
theorem leaveNullable_cases (clauses : List ColumnClause) :
    (∃ clause ∈ clauses, clause.nullable? = some (leaveNullable clauses)) ∨
      leaveNullable clauses = true ∧ ∀ clause ∈ clauses, clause.nullable? = none := by
  rw [leaveNullable]
  cases last : (clauses.filterMap ColumnClause.nullable?).getLast? with
  | none =>
      refine Or.inr ⟨rfl, ?_⟩
      rwa [List.getLast?_eq_none_iff, List.filterMap_eq_nil_iff] at last
  | some allowed =>
      obtain ⟨clause, member, said⟩ := List.mem_filterMap.mp (List.mem_of_getLast? last)
      exact Or.inl ⟨clause, member, said⟩

/-- Without an explicit null, a primary key excludes null. -/
theorem leaveNullable_of_key {clauses : List ColumnClause} (key : .primaryKey ∈ clauses)
    (unsaid : .nullable ∉ clauses) : leaveNullable clauses = false := by
  rcases leaveNullable_cases clauses with ⟨clause, member, said⟩ | ⟨_, silent⟩
  · cases allowed : leaveNullable clauses with
    | false => rfl
    | true =>
        rw [allowed] at said
        cases clause with
        | nullable => exact (unsaid member).elim
        | _ => cases said
  · cases silent _ key

/-- Without a primary key and without `NOT NULL`, null is let in. -/
theorem leaveNullable_of_unsaid {clauses : List ColumnClause} (noKey : .primaryKey ∉ clauses)
    (noNotNull : .notNull ∉ clauses) : leaveNullable clauses = true := by
  rcases leaveNullable_cases clauses with ⟨clause, member, said⟩ | ⟨allowed, _⟩
  · cases allowed : leaveNullable clauses with
    | true => rfl
    | false =>
        rw [allowed] at said
        cases clause with
        | primaryKey => exact (noKey member).elim
        | notNull => exact (noNotNull member).elim
        | _ => cases said
  · exact allowed

variable {dialect : Dialect}

/-- The clauses of a column say whether it is nullable and whether it is in the primary key. -/
theorem effect_of_readColumn {name type : Text} {clauses : List ColumnClause} {definition : Column}
    (read : readColumn dialect name type clauses = .ok definition) :
    definition.nullable = leaveNullable clauses ∧
      (.primaryKey ∈ definition.constraints ↔ .primaryKey ∈ clauses) := by
  induction clauses using List.reverseRecOn generalizing definition with
  | nil =>
      cases read
      refine ⟨rfl, ?_⟩
      dsimp only [columnOfType]
      split <;> simp
  | append_singleton clauses clause ih =>
      rw [readColumn, List.foldlM_append] at read
      obtain ⟨middle, earlier, read⟩ := exists_of_bind_eq_ok read
      rw [List.foldlM_cons] at read
      obtain ⟨last, applied, result⟩ := exists_of_bind_eq_ok read
      cases result
      obtain ⟨nullable, key⟩ := ih earlier
      obtain ⟨lastNullable, lastKey⟩ := ColumnClause.effect_of_apply applied
      constructor
      · rw [lastNullable, nullable, leaveNullable_append]
      · rw [lastKey, key, List.mem_append, List.mem_singleton]
        exact or_congr_right eq_comm

/-! ## Clauses of a table -/

/-- Whether a primary key among the elements lists the named column. -/
def KeyedBy (elements : List TableElement) (name : Text) : Prop :=
  ∃ columns, .primaryKey columns ∈ elements ∧ name ∈ realNames columns

theorem keyedBy_append {first second : List TableElement} {name : Text} :
    KeyedBy (first ++ second) name ↔ KeyedBy first name ∨ KeyedBy second name := by
  simp only [KeyedBy, List.mem_append, or_and_right, exists_or]

theorem keyedBy_primaryKey {columns : List Text} {name : Text} :
    KeyedBy [.primaryKey columns] name ↔ name ∈ realNames columns := by
  simp [KeyedBy]

/-- The column behind a clause of its table that puts it into the primary key, or does not. -/
structure Marks (keyed : Prop) (before after : Column) : Prop where
  name : after.name = before.name
  nullable : after.nullable = true ↔ before.nullable = true ∧ ¬keyed
  key : .primaryKey ∈ after.constraints ↔ .primaryKey ∈ before.constraints ∨ keyed

theorem marks_joinPrimaryKey (column : Column) : Marks True column column.joinPrimaryKey where
  name := column.name_joinPrimaryKey
  nullable := by simp [Column.joinPrimaryKey]
  key := by simp [Column.joinPrimaryKey, Column.mem_addConstraint]

theorem marks_self (column : Column) : Marks False column column where
  name := rfl
  nullable := by simp
  key := by simp

theorem marks_addConstraint (column : Column) {constraint : Constraint}
    (other : constraint ≠ .primaryKey) : Marks False column (column.addConstraint constraint) where
  name := column.name_addConstraint constraint
  nullable := by simp
  key := by simp [Column.mem_addConstraint, Ne.symm other]

theorem Marks.trans {first second : Prop} {before middle after : Column}
    (earlier : Marks first before middle) (later : Marks second middle after) :
    Marks (first ∨ second) before after where
  name := later.name.trans earlier.name
  nullable := by rw [later.nullable, earlier.nullable, not_or, and_assoc]
  key := by rw [later.key, earlier.key, or_assoc]

theorem Marks.congr {first second : Prop} {before after : Column} (marks : Marks first before after)
    (same : first ↔ second) : Marks second before after :=
  propext same ▸ marks

/-- A primary key marks the columns that it lists. -/
theorem marks_changeColumns {table : Table} (distinct : (table.columns.map Column.name).Nodup)
    (names : List Text) {column : Column}
    (member : column ∈ (changeColumns Column.joinPrimaryKey table names).1.columns) :
    ∃ old ∈ table.columns, Marks (old.name ∈ names) old column := by
  induction names generalizing table with
  | nil => exact ⟨column, member, (marks_self column).congr (by simp)⟩
  | cons name names ih =>
      have sameNames := (steps_changeColumn name Column.Steps.joinPrimaryKey table).map_name
      change column ∈ (changeColumns _ (changeColumn name _ table).1 names).1.columns at member
      obtain ⟨middle, middleMem, later⟩ := ih (sameNames ▸ distinct) member
      rw [changeColumn_fst, modifyByKey_eq_map distinct] at middleMem
      obtain ⟨old, oldMem, rfl⟩ := List.mem_map.mp middleMem
      have earlier : Marks (old.name = name) old
          (if old.name = name then old.joinPrimaryKey else old) := by
        split
        · next same => exact (marks_joinPrimaryKey old).congr (by simp [same])
        · next differs => exact (marks_self old).congr (by simp [differs])
      refine ⟨old, oldMem, (earlier.trans later).congr ?_⟩
      rw [earlier.name, List.mem_cons]

theorem marks_changeColumn {table : Table} {name : Text} {constraint : Constraint}
    {column : Column}
    (member : column ∈ (changeColumn name (·.addConstraint constraint) table).1.columns)
    (other : constraint ≠ .primaryKey) :
    ∃ old ∈ table.columns, Marks False old column := by
  rw [changeColumn_fst] at member
  rcases mem_of_mem_modifyByKey member with kept | ⟨old, oldMem, rfl⟩
  · exact ⟨column, kept, marks_self column⟩
  · exact ⟨old, oldMem, marks_addConstraint old other⟩

theorem marks_constrain {kind : TableConstraint.Kind} {constraint : Constraint}
    {columns : List Text} {table : Table} {column : Column}
    (member : column ∈ (constrain kind constraint columns table).1.columns)
    (other : constraint ≠ .primaryKey) :
    ∃ old ∈ table.columns, Marks False old column := by
  unfold constrain at member
  split at member
  · exact ⟨column, member, marks_self column⟩
  · exact marks_changeColumn member other
  · exact ⟨column, member, marks_self column⟩

theorem marks_foreignKey {columns : List Text} {target : Option Reference} {table next : Table}
    {warnings : List Warning}
    (applied : (TableElement.foreignKey columns target).apply dialect table = .ok (next, warnings))
    {column : Column} (member : column ∈ next.columns) :
    ∃ old ∈ table.columns, Marks False old column := by
  rcases TableElement.apply_foreignKey dialect columns target with
    ⟨name, key, _, changes⟩ | unresolved
  · rw [changes] at applied
    obtain ⟨rfl, _⟩ := Prod.mk.inj (Except.ok.inj applied)
    exact marks_changeColumn member nofun
  · rw [unresolved] at applied
    cases applied
    exact ⟨column, member, marks_self column⟩

/-- A clause of a table marks the columns that it puts into the primary key, and no others. -/
theorem TableElement.marks_of_apply {element : TableElement} {table next : Table}
    {warnings : List Warning} (noColumn : element.columnName? = none)
    (distinct : (table.columns.map Column.name).Nodup)
    (applied : element.apply dialect table = .ok (next, warnings)) {column : Column}
    (member : column ∈ next.columns) :
    ∃ old ∈ table.columns, Marks (KeyedBy [element] old.name) old column := by
  have unkeyed : (∀ columns, element ≠ .primaryKey columns) →
      (∃ old ∈ table.columns, Marks False old column) →
      ∃ old ∈ table.columns, Marks (KeyedBy [element] old.name) old column := by
    rintro other ⟨old, oldMem, marks⟩
    refine ⟨old, oldMem, marks.congr (iff_of_false id ?_)⟩
    rintro ⟨columns, found, _⟩
    exact other columns (List.mem_singleton.mp found).symm
  cases element with
  | column => cases noColumn
  | primaryKey columns =>
      obtain ⟨rfl, _⟩ := Prod.mk.inj (Except.ok.inj applied)
      obtain ⟨old, oldMem, marks⟩ := marks_changeColumns distinct _ member
      exact ⟨old, oldMem, marks.congr keyedBy_primaryKey.symm⟩
  | foreignKey columns target => exact unkeyed (fun _ => nofun) (marks_foreignKey applied member)
  | unique columns =>
      have same : (constrain .unique .unique columns table).1 = next :=
        congrArg Prod.fst (Except.ok.inj applied)
      rw [← same] at member
      exact unkeyed (fun _ => nofun) (marks_constrain member nofun)
  | other =>
      cases applied
      exact unkeyed (fun _ => nofun) ⟨column, member, marks_self column⟩

/-! ## Definitions -/

/-- What the elements say about the named column: the clauses of its last definition among
them, and the elements behind it. -/
structure Declares (elements : List TableElement) (name : Text) (clauses : List ColumnClause)
    (behind : List TableElement) : Prop where
  stands : ∃ before type, elements = before ++ .column name type clauses :: behind
  last : name ∉ columnNames behind

theorem declares_last (seen : List TableElement) (name type : Text)
    (clauses : List ColumnClause) :
    Declares (seen ++ [.column name type clauses]) name clauses [] where
  stands := ⟨seen, type, rfl⟩
  last := List.not_mem_nil

theorem Declares.append {seen behind : List TableElement} {name : Text}
    {clauses : List ColumnClause} (declares : Declares seen name clauses behind)
    {element : TableElement} (other : element.columnName? ≠ some name) :
    Declares (seen ++ [element]) name clauses (behind ++ [element]) where
  stands := by
    obtain ⟨before, type, rfl⟩ := declares.stands
    exact ⟨before, type, by simp⟩
  last := by
    rw [columnNames, List.filterMap_append, List.mem_append, not_or]
    refine ⟨declares.last, ?_⟩
    simpa using other

/-- A column as its declaration has it: whether it is nullable, and whether it is in the primary
key. -/
structure Decided (column : Column) (clauses : List ColumnClause) (behind : List TableElement) :
    Prop where
  nullable : column.nullable = true ↔ leaveNullable clauses = true ∧ ¬KeyedBy behind column.name
  key : .primaryKey ∈ column.constraints ↔ .primaryKey ∈ clauses ∨ KeyedBy behind column.name

theorem not_keyedBy_nil (name : Text) : ¬KeyedBy [] name := by
  rintro ⟨_, member, _⟩
  cases member

theorem not_keyedBy_column (name type other : Text) (clauses : List ColumnClause) :
    ¬KeyedBy [.column name type clauses] other := by
  rintro ⟨columns, member, _⟩
  cases List.mem_singleton.mp member

theorem decided_of_readColumn {name type : Text} {clauses : List ColumnClause}
    {definition : Column} (read : readColumn dialect name type clauses = .ok definition) :
    Decided definition clauses [] := by
  have unkeyed := not_keyedBy_nil definition.name
  obtain ⟨nullable, key⟩ := effect_of_readColumn read
  exact ⟨by simp [nullable, unkeyed], by simp [key, unkeyed]⟩

theorem Decided.append {old column : Column} {clauses : List ColumnClause}
    {behind more : List TableElement} (decided : Decided old clauses behind)
    (marks : Marks (KeyedBy more old.name) old column) :
    Decided column clauses (behind ++ more) where
  nullable := by
    rw [marks.nullable, decided.nullable, marks.name, keyedBy_append, not_or, and_assoc]
  key := by rw [marks.key, decided.key, marks.name, keyedBy_append, or_assoc]

/-- A table whose columns are all decided by the elements so far. -/
structure DecidedBy (elements : List TableElement) (table : Table) : Prop where
  distinct : (table.columns.map Column.name).Nodup
  columns : ∀ column ∈ table.columns, ∃ clauses behind,
    Declares elements column.name clauses behind ∧ Decided column clauses behind

theorem decidedBy_emptyTable (name : ObjectName) : DecidedBy [] (emptyTable name) := by
  rw [emptyTable]
  split <;> exact ⟨List.nodup_nil, List.forall_mem_nil _⟩

/-- A new column is decided by its own clauses, and says nothing about the others. -/
theorem DecidedBy.define {seen : List TableElement} {table : Table} (decided : DecidedBy seen table)
    {name type : Text} {clauses : List ColumnClause} {definition : Column}
    (read : readColumn dialect name type clauses = .ok definition) :
    DecidedBy (seen ++ [.column name type clauses]) (table.define definition) where
  distinct := nodup_putByKey decided.distinct
  columns column member := by
    have named : definition.name = name := (steps_of_readColumn read).name_eq
    rcases key_ne_of_mem_putByKey decided.distinct member with rfl | ⟨earlier, other⟩
    · exact ⟨clauses, [], named ▸ declares_last .., decided_of_readColumn read⟩
    · obtain ⟨others, behind, declares, decided⟩ := decided.columns column earlier
      rw [named] at other
      have apart : (TableElement.column name type clauses).columnName? ≠ some column.name :=
        fun same => other (Option.some.inj same).symm
      have marks : Marks (KeyedBy [.column name type clauses] column.name) column column :=
        (marks_self column).congr (by simp [not_keyedBy_column])
      exact ⟨others, _, declares.append apart, decided.append marks⟩

theorem DecidedBy.change {seen : List TableElement} {table next : Table}
    (decided : DecidedBy seen table) {element : TableElement} {warnings : List Warning}
    (noColumn : element.columnName? = none)
    (applied : element.apply dialect table = .ok (next, warnings)) :
    DecidedBy (seen ++ [element]) next where
  distinct := by
    cases TableElement.step_of_apply applied with
    | defines => exact nodup_putByKey decided.distinct
    | changes _ steps => exact steps.map_name ▸ decided.distinct
  columns column member := by
    obtain ⟨old, oldMem, marks⟩ :=
      TableElement.marks_of_apply noColumn decided.distinct applied member
    obtain ⟨clauses, behind, declares, decided⟩ := decided.columns old oldMem
    rw [← marks.name] at declares
    exact ⟨clauses, _, declares.append (by simp [noColumn]), decided.append marks⟩

/-- The columns of a table are decided by the elements of its definition. -/
theorem decidedBy_of_applyElements {name : ObjectName} {elements : List TableElement}
    {table : Table} {warnings : List Warning}
    (applied : applyElements dialect (emptyTable name) elements = .ok (table, warnings)) :
    DecidedBy elements table := by
  refine applyElements_induction DecidedBy [] ?_ (decidedBy_emptyTable name) applied
  intro seen table element next _ decided step
  cases element with
  | column name type clauses =>
      obtain ⟨definition, read, step⟩ := exists_of_bind_eq_ok step
      cases step
      exact decided.define read
  | primaryKey | foreignKey | unique | other => exact decided.change rfl step

/-! ## Scripts -/

theorem marks_of_indexedFrom {old column : Column} (indexing : Column.IndexedFrom old column) :
    Marks False old column := by
  rcases indexing with rfl | rfl
  · exact marks_self _
  · exact marks_addConstraint old nofun

/-- An index says nothing about null and the primary key. -/
theorem Decided.index {old column : Column} {clauses : List ColumnClause}
    {behind : List TableElement} (decided : Decided old clauses behind)
    (indexing : Column.IndexedFrom old column) : Decided column clauses behind := by
  have unmarked := (marks_of_indexedFrom indexing).congr (iff_of_false id (not_keyedBy_nil old.name))
  have whole := decided.append unmarked
  rwa [List.append_nil] at whole

/-- A definition that is a script of its own has been applied to the empty table. -/
theorem applyElements_of_alone {definition : Definition} {table : Table} {warnings : List Warning}
    (alone : importStatements dialect [definition.statement] = .ok ({ tables := [table] }, warnings)) :
    ∃ stated, applyElements dialect (emptyTable definition.name) definition.elements =
      .ok (table, stated) := by
  obtain ⟨⟨tables, _⟩, run, result⟩ := exists_of_bind_eq_ok alone
  cases result
  obtain ⟨⟨next, _⟩, step, rest⟩ := exists_of_bind_eq_ok run
  cases rest
  obtain ⟨defined, applied, result⟩ := exists_of_bind_eq_ok step
  cases result
  exact ⟨_, applied⟩

/-- Every imported column is decided by the definition of its table.  It is in the primary key
when its own clauses or a primary key behind it say so.  It is nullable when no primary key
behind it lists it and the last of its own clauses to say something about null lets null in, or
none says anything.  So a column of the primary key can only be nullable with an explicit null,
and a column that nothing excludes null from is nullable. -/
theorem nullable_by_last_word {statements : List Statement} {schema : Schema}
    {warnings : List Warning}
    (found : importStatements dialect statements = .ok (schema, warnings))
    {table : Table} (tableMem : table ∈ schema.tables)
    {column : Column} (columnMem : column ∈ table.columns) :
    ∃ definition ∈ standing (definitions statements), definition.bareName = table.name ∧
    ∃ clauses behind, Declares definition.elements column.name clauses behind ∧
      (.primaryKey ∈ column.constraints ↔
        .primaryKey ∈ clauses ∨ KeyedBy behind column.name) ∧
      (column.nullable = true ↔
        leaveNullable clauses = true ∧ ¬KeyedBy behind column.name) ∧
      (.primaryKey ∈ column.constraints → .nullable ∉ clauses → column.nullable = false) ∧
      (.primaryKey ∉ clauses → .notNull ∉ clauses → ¬KeyedBy behind column.name →
        column.nullable = true) := by
  obtain ⟨⟨tables, stated⟩, run, result⟩ := exists_of_bind_eq_ok found
  cases result
  obtain ⟨definition, stands, yields⟩ :=
    exists_of_forall₂ (yields_of_applyStatements run) tableMem
  obtain ⟨defined, _, alone, indexed⟩ := yields.alone
  obtain ⟨_, applied⟩ := applyElements_of_alone alone
  obtain ⟨old, oldMem, indexing⟩ := exists_of_forall₂ indexed.columns columnMem
  obtain ⟨clauses, behind, declares, decided⟩ :=
    (decidedBy_of_applyElements applied).columns old oldMem
  rw [← (marks_of_indexedFrom indexing).name] at declares
  have decided := decided.index indexing
  refine ⟨definition, stands, yields.name.symm, clauses, behind, declares, decided.key,
    decided.nullable, ?_, ?_⟩
  · intro key unsaid
    rw [← Bool.not_eq_true, decided.nullable]
    rintro ⟨allowed, unkeyed⟩
    have own := (decided.key.mp key).resolve_right unkeyed
    rw [leaveNullable_of_key own unsaid] at allowed
    cases allowed
  · intro noKey noNotNull unkeyed
    exact decided.nullable.mpr ⟨leaveNullable_of_unsaid noKey noNotNull, unkeyed⟩

section Reopened

/-- A table with a primary key that lets null in again, and a column whose null is excluded by
a primary key of the table. -/
def reopenedStatements : List Statement :=
  [.createTable { name := "t".toList } (some [
     .column "a".toList "INT".toList [.notNull, .primaryKey, .unique, .nullable],
     .column "b".toList "INT".toList [.nullable],
     .primaryKey ["b".toList],
     .column "c".toList "INT".toList [.unique]]),
   .createIndex { name := "t".toList } ["a".toList]]

/-- The first column of the table. -/
def reopenedKey : Column where
  name := "a".toList
  type := .simple "int".toList none false
  nullable := true
  constraints := [.primaryKey, .unique, .index]

/-- The schema of the statements. -/
def reopened : Schema where
  tables := [{
    name := "t".toList
    columns := [
      reopenedKey,
      { name := "b".toList
        type := .simple "int".toList none false
        constraints := [.primaryKey] },
      { name := "c".toList
        type := .simple "int".toList none false
        nullable := true
        constraints := [.unique] }] }]

theorem importStatements_reopenedStatements :
    importStatements .postgresql reopenedStatements = .ok (reopened, []) := by
  decide

end Reopened

theorem nullable_by_last_word_reopened :
    importStatements .postgresql reopenedStatements = .ok (reopened, []) ∧
    ∃ definition ∈ standing (definitions reopenedStatements), definition.bareName = "t".toList ∧
    ∃ clauses behind, Declares definition.elements "a".toList clauses behind ∧
      (.primaryKey ∈ clauses ∨ KeyedBy behind "a".toList) ∧
      leaveNullable clauses = true ∧ ¬KeyedBy behind "a".toList := by
  obtain ⟨definition, stands, name, clauses, behind, declares, key, nullable, _⟩ :=
    nullable_by_last_word importStatements_reopenedStatements (List.mem_singleton_self _)
      (List.mem_cons_self : reopenedKey ∈ _)
  have isKey : .primaryKey ∈ reopenedKey.constraints := List.mem_cons_self
  exact ⟨importStatements_reopenedStatements, definition, stands, name, clauses, behind, declares,
    key.mp isKey, nullable.mp rfl⟩

/-- An explicit null behind a primary key makes a column of the primary key nullable. -/
theorem nullable_primary_key :
    ∃ schema, importStatements .postgresql
        [.createTable { name := "t".toList } (some [
          .column "a".toList "INT".toList [.primaryKey, .nullable]])] = .ok (schema, []) ∧
      ∃ table ∈ schema.tables, ∃ column ∈ table.columns,
        .primaryKey ∈ column.constraints ∧ column.nullable = true := by
  let column : Column :=
    { name := "a".toList
      type := .simple "int".toList none false
      nullable := true
      constraints := [.primaryKey] }
  exact ⟨{ tables := [{ name := "t".toList, columns := [column] }] }, by decide, _,
    List.mem_singleton_self _, column, List.mem_singleton_self _, List.mem_singleton_self _, rfl⟩

end Ddl

end SchemaNotation
