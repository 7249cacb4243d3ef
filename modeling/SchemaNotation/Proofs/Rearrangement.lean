import SchemaNotation.Proofs.Standing

/-!
# The order of the elements

A clause of a table changes the columns in front of it and no others.  So the columns of a
definition can be read first and its clauses after them, when each clause leaves out what it
says about the columns behind it.  Clauses may change their places among the columns as long
as none of them comes to stand in front of a column that it is about.
-/

namespace SchemaNotation.Ddl

/-! ## Columns and clauses -/

namespace TableElement

/-- Whether the element defines a column. -/
def isColumn (element : TableElement) : Bool :=
  element.columnName?.isSome

/-- The element without what it says about the named column. -/
def spare (name : Text) : TableElement → TableElement
  | .primaryKey columns => .primaryKey (columns.filter (· != name))
  | .foreignKey columns target =>
      if realNames columns = [name] then .other else .foreignKey columns target
  | .unique columns => if realNames columns = [name] then .other else .unique columns
  | element => element

/-- The element without what it says about several columns. -/
def spareAll (names : List Text) (element : TableElement) : TableElement :=
  names.foldl (fun spared name => spared.spare name) element

/-- An element that says something about the named column: a primary key that lists it, or a
foreign or unique key over it alone. -/
def Concerns : TableElement → Text → Prop
  | .primaryKey columns, name => name ∈ columns
  | .foreignKey columns _, name => realNames columns = [name]
  | .unique columns, name => realNames columns = [name]
  | _, _ => False

theorem spare_of_not_concerns {element : TableElement} {name : Text}
    (apart : ¬element.Concerns name) : element.spare name = element := by
  cases element with
  | primaryKey columns =>
      have kept : columns.filter (· != name) = columns := by
        rw [List.filter_eq_self]
        intro other member
        rw [bne_iff_ne]
        rintro rfl
        exact apart member
      rw [spare, kept]
  | foreignKey | unique => exact if_neg apart
  | column | other => rfl

theorem spareAll_of_not_concerns {element : TableElement} {names : List Text}
    (apart : ∀ name ∈ names, ¬element.Concerns name) : element.spareAll names = element := by
  induction names with
  | nil => rfl
  | cons name names ih =>
      rw [List.forall_mem_cons] at apart
      rw [spareAll, List.foldl_cons, spare_of_not_concerns apart.1]
      exact ih apart.2

end TableElement

/-- The elements that define columns, in order. -/
def columnsOf (elements : List TableElement) : List TableElement :=
  elements.filter TableElement.isColumn

/-- The other elements, in order. -/
def clausesOf (elements : List TableElement) : List TableElement :=
  elements.filter (!·.isColumn)

/-- The clauses of a definition, each without what it says about the columns behind it. -/
def clausesBehind : List TableElement → List TableElement
  | [] => []
  | element :: elements =>
      if element.isColumn then clausesBehind elements
      else element.spareAll (columnNames elements) :: clausesBehind elements

/-- No clause stands in front of a column that it is about. -/
def NoneAhead (elements : List TableElement) : Prop :=
  elements.Pairwise fun element later => ∀ name ∈ later.columnName?, ¬element.Concerns name

theorem clausesBehind_of_noneAhead {elements : List TableElement} (behind : NoneAhead elements) :
    clausesBehind elements = clausesOf elements := by
  induction elements with
  | nil => rfl
  | cons element elements ih =>
      rw [NoneAhead, List.pairwise_cons] at behind
      rw [clausesBehind, clausesOf, List.filter_cons, ← clausesOf, ih behind.2]
      cases kind : element.isColumn with
      | true => rfl
      | false =>
          have apart : ∀ name ∈ columnNames elements, ¬element.Concerns name := by
            intro name member
            obtain ⟨later, laterMem, defines⟩ := List.mem_filterMap.mp member
            exact behind.1 later laterMem name defines
          rw [TableElement.spareAll_of_not_concerns apart]
          rfl

/-! ## One clause and one column -/

variable {dialect : Dialect}

/-- A change of one column and the definition of another do not see each other. -/
theorem changeColumn_define {name : Text} {change : Column → Column} {definition : Column}
    (keeps : ∀ column, (change column).name = column.name) (apart : definition.name ≠ name)
    (table : Table) :
    (changeColumn name change (table.define definition)).1 =
      (changeColumn name change table).1.define definition := by
  rw [changeColumn_fst, changeColumn_fst, Table.define, Table.define,
    modifyByKey_putByKey keeps apart]

/-- A change of a column is lost when it is defined again. -/
theorem define_changeColumn {change : Column → Column} {definition : Column}
    (keeps : ∀ column, (change column).name = column.name) (table : Table) :
    (changeColumn definition.name change table).1.define definition = table.define definition := by
  rw [changeColumn_fst, Table.define, Table.define, putByKey_modifyByKey keeps]

/-- Of the changes in front of the definition of a column, those of other columns are left. -/
theorem define_changeColumns {change : Column → Column} {definition : Column}
    (keeps : ∀ column, (change column).name = column.name) (names : List Text) (table : Table) :
    (changeColumns change table names).1.define definition =
      (changeColumns change (table.define definition)
        (names.filter (· != definition.name))).1 := by
  induction names generalizing table with
  | nil => rfl
  | cons name names ih =>
      rw [changeColumns]
      dsimp only
      rw [ih, List.filter_cons]
      by_cases same : name = definition.name
      · rw [same, define_changeColumn keeps, bne_self_eq_false, if_neg Bool.false_ne_true]
      · rw [← changeColumn_define keeps (Ne.symm same), bne_iff_ne.mpr same, if_pos rfl,
          changeColumns]

theorem define_constrain (kind : TableConstraint.Kind) (constraint : Constraint)
    (columns : List Text) (definition : Column) (table : Table) :
    (constrain kind constraint columns table).1.define definition =
      if realNames columns = [definition.name] then table.define definition
      else (constrain kind constraint columns (table.define definition)).1 := by
  have keeps := Column.name_addConstraint constraint
  unfold constrain
  split
  · next empty => simp [empty]
  · next name single =>
      rw [single]
      by_cases same : name = definition.name
      · rw [same, if_pos rfl, define_changeColumn keeps]
      · rw [if_neg (by simpa using same), changeColumn_define keeps (Ne.symm same)]
  · next several =>
      rw [if_neg (several _)]
      rfl

theorem realNames_filter (columns : List Text) (name : Text) :
    realNames (columns.filter (· != name)) = (realNames columns).filter (· != name) :=
  List.filter_comm ..

/-- A clause always applies.  What it does to a table before a column is defined is what it
does afterwards without what it says about this column. -/
theorem TableElement.exists_apply_clause {element : TableElement}
    (noColumn : element.isColumn = false) (definition : Column) (table : Table) :
    ∃ changed, (element.apply dialect table).map Prod.fst = .ok changed ∧
      ((element.spare definition.name).apply dialect (table.define definition)).map Prod.fst =
        .ok (changed.define definition) := by
  cases element with
  | column => cases noColumn
  | primaryKey columns =>
      refine ⟨_, rfl, ?_⟩
      rw [spare, apply, realNames_filter, define_changeColumns Column.name_joinPrimaryKey]
      rfl
  | foreignKey columns target =>
      rcases apply_foreignKey dialect columns target with ⟨name, key, single, changes⟩ | unresolved
      · have keeps := Column.name_addConstraint (.foreignKey key)
        rw [changes]
        refine ⟨_, rfl, ?_⟩
        by_cases same : name = definition.name
        · rw [same, define_changeColumn keeps, spare, if_pos (same ▸ single)]
          rfl
        · rw [← changeColumn_define keeps (Ne.symm same), spare,
            if_neg (by simpa [single] using same), changes]
          rfl
      · rw [unresolved]
        refine ⟨_, rfl, ?_⟩
        rw [spare]
        split
        · rfl
        · rw [unresolved]
          rfl
  | unique columns =>
      refine ⟨_, rfl, ?_⟩
      rw [define_constrain, spare]
      split <;> rfl
  | other => exact ⟨_, rfl, rfl⟩

/-! ## Whole definitions -/

/-- The table that elements make of the table before them. -/
def tableOf (dialect : Dialect) (table : Table) (elements : List TableElement) :
    Except ImportError Table :=
  (applyElements dialect table elements).map Prod.fst

theorem tableOf_cons (table : Table) (element : TableElement) (elements : List TableElement) :
    tableOf dialect table (element :: elements) =
      (element.apply dialect table).map Prod.fst >>= fun next => tableOf dialect next elements := by
  rw [tableOf, applyElements]
  cases element.apply dialect table with
  | error fault => rfl
  | ok step =>
      dsimp only [bind, Except.bind, Except.map, tableOf]
      cases applyElements dialect step.1 elements <;> rfl

theorem tableOf_column (table : Table) (name type : Text) (clauses : List ColumnClause)
    (elements : List TableElement) :
    tableOf dialect table (.column name type clauses :: elements) =
      readColumn dialect name type clauses >>= fun definition =>
        tableOf dialect (table.define definition) elements := by
  rw [tableOf_cons, TableElement.apply]
  cases readColumn dialect name type clauses <;> rfl

/-- A clause changes its place with the column behind it. -/
theorem tableOf_swap {clause : TableElement} (noColumn : clause.isColumn = false) (table : Table)
    (name type : Text) (clauses : List ColumnClause) (elements : List TableElement) :
    tableOf dialect table (clause :: .column name type clauses :: elements) =
      tableOf dialect table (.column name type clauses :: clause.spare name :: elements) := by
  rw [tableOf_cons, tableOf_column]
  cases read : readColumn dialect name type clauses with
  | error fault =>
      -- The clause in front never fails, so the fault of the column comes first in both orders.
      obtain ⟨changed, applied, _⟩ :=
        TableElement.exists_apply_clause noColumn (columnOfType dialect name type) table
      rw [applied]
      dsimp only [bind, Except.bind]
      rw [tableOf_column, read]
      rfl
  | ok definition =>
      have named : definition.name = name := (steps_of_readColumn read).name_eq
      obtain ⟨changed, applied, behind⟩ :=
        TableElement.exists_apply_clause noColumn definition table
      rw [named] at behind
      rw [applied]
      dsimp only [bind, Except.bind]
      rw [tableOf_column, read]
      dsimp only [bind, Except.bind]
      rw [tableOf_cons, behind]
      rfl

theorem isColumn_spare (name : Text) (element : TableElement) :
    (element.spare name).isColumn = element.isColumn := by
  cases element with
  | foreignKey | unique =>
      rw [TableElement.spare]
      split <;> rfl
  | column | primaryKey | other => rfl

/-- A clause moves behind all columns that follow it. -/
theorem tableOf_move {clause : TableElement} (noColumn : clause.isColumn = false)
    {columns : List TableElement} (areColumns : ∀ element ∈ columns, element.isColumn = true)
    (elements : List TableElement) (table : Table) :
    tableOf dialect table (clause :: (columns ++ elements)) =
      tableOf dialect table (columns ++ clause.spareAll (columnNames columns) :: elements) := by
  induction columns generalizing clause table with
  | nil => rfl
  | cons column columns ih =>
      rw [List.forall_mem_cons] at areColumns
      match column, areColumns.1 with
      | .column name type clauses, _ =>
          have rest : ∀ next, tableOf dialect next (clause.spare name :: (columns ++ elements)) =
              tableOf dialect next (columns ++
                (clause.spare name).spareAll (columnNames columns) :: elements) :=
            ih ((isColumn_spare name clause).trans noColumn) areColumns.2
          rw [List.cons_append, tableOf_swap noColumn, tableOf_column, List.cons_append,
            tableOf_column, funext fun definition => rest (table.define definition)]
          rfl

theorem columnNames_columnsOf (elements : List TableElement) :
    columnNames (columnsOf elements) = columnNames elements := by
  rw [columnNames, columnsOf, List.filterMap_filter]
  refine List.filterMap_congr fun element _ => ?_
  cases element <;> rfl

/-- A definition says the same when its columns come first and its clauses after them, each
without what it says about the columns that were behind it. -/
theorem tableOf_eq (elements : List TableElement) (table : Table) :
    tableOf dialect table elements =
      tableOf dialect table (columnsOf elements ++ clausesBehind elements) := by
  induction elements generalizing table with
  | nil => rfl
  | cons element elements ih =>
      rw [clausesBehind, columnsOf, List.filter_cons, ← columnsOf]
      cases kind : element.isColumn with
      | true =>
          rw [if_pos rfl, if_pos rfl, List.cons_append, tableOf_cons, tableOf_cons,
            funext fun next => ih next]
      | false =>
          have areColumns : ∀ column ∈ columnsOf elements, column.isColumn = true :=
            fun _ member => (List.mem_filter.mp member).2
          rw [if_neg Bool.false_ne_true, if_neg Bool.false_ne_true, tableOf_cons,
            funext fun next => ih next, ← tableOf_cons, tableOf_move kind areColumns,
            columnNames_columnsOf]

/-! ## Scripts -/

/-- The schema of a script, without the warnings. -/
def schemaOf (dialect : Dialect) (statements : List Statement) : Except ImportError Schema :=
  (importStatements dialect statements).map Prod.fst

theorem map_fst_applyStatements_cons (tables : List Table) (statement : Statement)
    (statements : List Statement) :
    (applyStatements dialect tables (statement :: statements)).map Prod.fst =
      (statement.apply dialect tables).map Prod.fst >>= fun next =>
        (applyStatements dialect next statements).map Prod.fst := by
  rw [applyStatements]
  cases statement.apply dialect tables with
  | error fault => rfl
  | ok step =>
      dsimp only [bind, Except.bind, Except.map]
      cases applyStatements dialect step.1 statements <;> rfl

/-- Statements that always make the same tables can stand for each other in a script. -/
theorem schemaOf_congr {first second : Statement}
    (same : ∀ tables, (first.apply dialect tables).map Prod.fst =
      (second.apply dialect tables).map Prod.fst)
    (before after : List Statement) :
    schemaOf dialect (before ++ first :: after) = schemaOf dialect (before ++ second :: after) := by
  have runs : ∀ tables, (applyStatements dialect tables (before ++ first :: after)).map Prod.fst =
      (applyStatements dialect tables (before ++ second :: after)).map Prod.fst := by
    induction before with
    | nil =>
        intro tables
        rw [List.nil_append, List.nil_append, map_fst_applyStatements_cons,
          map_fst_applyStatements_cons, same]
    | cons statement before ih =>
        intro tables
        rw [List.cons_append, List.cons_append, map_fst_applyStatements_cons,
          map_fst_applyStatements_cons, funext fun next => ih next]
  have schema : ∀ statements, schemaOf dialect statements =
      ((applyStatements dialect [] statements).map Prod.fst).map fun tables => { tables } := by
    intro statements
    rw [schemaOf, importStatements]
    cases applyStatements dialect [] statements <;> rfl
  rw [schema, schema, runs]

theorem map_fst_apply_createTable (name : ObjectName) (elements : List TableElement)
    (tables : List Table) :
    ((Statement.createTable name (some elements)).apply dialect tables).map Prod.fst =
      (tableOf dialect (emptyTable name) elements).map fun table =>
        putByKey Table.name table tables := by
  rw [Statement.apply, tableOf]
  cases applyElements dialect (emptyTable name) elements <;> rfl

/-- Definitions that make the same table of every one can stand for each other in a script. -/
theorem schemaOf_definition {first second : List TableElement} (name : ObjectName)
    (same : tableOf dialect (emptyTable name) first = tableOf dialect (emptyTable name) second)
    (before after : List Statement) :
    schemaOf dialect (before ++ .createTable name (some first) :: after) =
      schemaOf dialect (before ++ .createTable name (some second) :: after) := by
  refine schemaOf_congr ?_ before after
  intro tables
  rw [map_fst_apply_createTable, map_fst_apply_createTable, same]

/-- A definition means its columns followed by its clauses, each without what it says about
the columns behind it.  So two definitions with the same columns in order and the same
clauses in order mean the same when in neither of them a clause stands in front of a column
that it is about. -/
theorem clauses_reach_back (name : ObjectName) (before after : List Statement)
    (first : List TableElement) :
    schemaOf dialect (before ++ .createTable name (some first) :: after) =
      schemaOf dialect
        (before ++ .createTable name (some (columnsOf first ++ clausesBehind first)) :: after) ∧
    ∀ second, columnsOf first = columnsOf second → clausesOf first = clausesOf second →
      NoneAhead first → NoneAhead second →
      schemaOf dialect (before ++ .createTable name (some first) :: after) =
        schemaOf dialect (before ++ .createTable name (some second) :: after) := by
  refine ⟨schemaOf_definition name (tableOf_eq first _) before after, ?_⟩
  intro second columns clauses firstBehind secondBehind
  refine schemaOf_definition name ?_ before after
  rw [tableOf_eq first, tableOf_eq second, clausesBehind_of_noneAhead firstBehind,
    clausesBehind_of_noneAhead secondBehind, columns, clauses]

section Orders

/-- A definition whose clauses stand behind all columns. -/
def ordersBehind : List TableElement :=
  [.column "id".toList "INT".toList [],
   .column "item".toList "INT".toList [.notNull],
   .primaryKey ["id".toList],
   .unique ["id".toList, "item".toList],
   .foreignKey ["item".toList]
     (some { table := { name := "items".toList }, columns := ["id".toList] })]

/-- The same columns and clauses, with the clauses as far in front as they may stand. -/
def ordersAhead : List TableElement :=
  [.column "id".toList "INT".toList [],
   .primaryKey ["id".toList],
   .unique ["id".toList, "item".toList],
   .column "item".toList "INT".toList [.notNull],
   .foreignKey ["item".toList]
     (some { table := { name := "items".toList }, columns := ["id".toList] })]

theorem noneAhead_ordersBehind : NoneAhead ordersBehind := by
  simp [NoneAhead, ordersBehind, TableElement.columnName?, TableElement.Concerns]

theorem noneAhead_ordersAhead : NoneAhead ordersAhead := by
  simp [NoneAhead, ordersAhead, TableElement.columnName?, TableElement.Concerns, realNames]

end Orders

theorem clauses_reach_back_orders :
    columnsOf ordersBehind = columnsOf ordersAhead ∧ clausesOf ordersBehind = clausesOf ordersAhead ∧
    NoneAhead ordersBehind ∧ NoneAhead ordersAhead ∧
    schemaOf .postgresql [.createTable { name := "orders".toList } (some ordersBehind)] =
      schemaOf .postgresql [.createTable { name := "orders".toList } (some ordersAhead)] := by
  have columns : columnsOf ordersBehind = columnsOf ordersAhead := by decide
  have clauses : clausesOf ordersBehind = clausesOf ordersAhead := by decide
  exact ⟨columns, clauses, noneAhead_ordersBehind, noneAhead_ordersAhead,
    (clauses_reach_back { name := "orders".toList } [] [] ordersBehind).2 ordersAhead columns clauses
      noneAhead_ordersBehind noneAhead_ordersAhead⟩

/-- A primary key in front of its column is lost: the same column and the same clause in the
other order yield another schema. -/
theorem key_ahead_lost :
    let column : TableElement := .column "a".toList "INT".toList []
    let key : TableElement := .primaryKey ["a".toList]
    columnsOf [key, column] = columnsOf [column, key] ∧
    clausesOf [key, column] = clausesOf [column, key] ∧
    (columnNames [key, column]).Nodup ∧
    schemaOf .postgresql [.createTable { name := "t".toList } (some [key, column])] ≠
      schemaOf .postgresql [.createTable { name := "t".toList } (some [column, key])] := by
  decide

end SchemaNotation.Ddl
