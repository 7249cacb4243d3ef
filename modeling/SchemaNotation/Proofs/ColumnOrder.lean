import Mathlib.Data.List.Sort
import SchemaNotation.Render

/-!
# The order of written columns

Columns are sorted by a rank, and columns of one rank keep their order.  The columns of the
primary key come first and those with the name of a timestamp last.
-/

namespace SchemaNotation

/-! ## Sorting by a rank -/

section Rank

variable {α : Type} (rank : α → Nat)

theorem rank_trans (first second third : α) (earlier : decide (rank first ≤ rank second) = true)
    (later : decide (rank second ≤ rank third) = true) :
    decide (rank first ≤ rank third) = true := by
  rw [decide_eq_true_eq] at earlier later ⊢
  exact earlier.trans later

theorem rank_total (first second : α) :
    (decide (rank first ≤ rank second) || decide (rank second ≤ rank first)) = true := by
  rw [Bool.or_eq_true, decide_eq_true_eq, decide_eq_true_eq]
  exact Nat.le_total (rank first) (rank second)

/-- Items that were sorted by a rank increase in rank. -/
theorem pairwise_mergeSort_rank (items : List α) :
    (items.mergeSort fun first second => rank first ≤ rank second).Pairwise
      fun first second => rank first ≤ rank second :=
  (List.pairwise_mergeSort (rank_trans rank) (rank_total rank) items).imp of_decide_eq_true

/-- Sorting by a rank inserts the items one by one. -/
theorem mergeSort_rank (items : List α) :
    (items.mergeSort fun first second => rank first ≤ rank second) =
      items.insertionSort fun first second => rank first ≤ rank second := by
  induction items with
  | nil => rw [List.mergeSort_nil, List.insertionSort_nil]
  | cons item items ih =>
      have sorted := pairwise_mergeSort_rank rank (item :: items)
      obtain ⟨before, behind, whole, rest, lower⟩ :=
        List.mergeSort_cons (rank_trans rank) (rank_total rank) item items
      rw [whole, List.pairwise_append] at sorted
      have passed : ∀ other ∈ before, decide ¬rank item ≤ rank other = true := by
        intro other member
        simpa using lower other member
      rw [List.insertionSort_cons, ← ih, rest, whole, List.orderedInsert_eq_take_drop,
        List.takeWhile_append_of_pos passed, List.dropWhile_append_of_pos passed]
      cases behind with
      | nil => rw [List.takeWhile_nil, List.dropWhile_nil, List.append_nil]
      | cons other others =>
          have stays := (List.pairwise_cons.mp sorted.2.1).1 other List.mem_cons_self
          rw [List.takeWhile_cons_of_neg (by simpa using stays),
            List.dropWhile_cons_of_neg (by simpa using stays), List.append_nil]

/-- Sorting by a rank keeps the order of the items that have one rank. -/
theorem filter_mergeSort_rank (place : Nat) (items : List α) :
    (items.mergeSort fun first second => rank first ≤ rank second).filter (rank · = place) =
      items.filter (rank · = place) := by
  have level : (items.filter (rank · = place)).Pairwise fun first second =>
      decide (rank first ≤ rank second) = true := by
    apply List.pairwise_of_forall_mem_list
    intro first firstMem second secondMem
    have firstRank := of_decide_eq_true (List.mem_filter.mp firstMem).2
    have secondRank := of_decide_eq_true (List.mem_filter.mp secondMem).2
    rw [decide_eq_true_eq, firstRank, secondRank]
  -- The items of one rank are in order, so the sort keeps them as a part of the result.
  have within := (List.sublist_mergeSort (rank_trans rank) (rank_total rank) level
    List.filter_sublist).filter (rank · = place)
  simp only [List.filter_filter, Bool.and_self] at within
  have length := ((List.mergeSort_perm items fun first second => rank first ≤ rank second).filter
    (rank · = place)).length_eq
  exact (within.eq_of_length length.symm).symm

/-- Items that increase in rank are those below a place and those from it on. -/
theorem eq_below_append (place : Nat) {items : List α}
    (sorted : items.Pairwise fun first second => rank first ≤ rank second) :
    items = items.filter (rank · < place) ++ items.filter (place ≤ rank ·) := by
  induction items with
  | nil => rfl
  | cons item items ih =>
      obtain ⟨least, sorted⟩ := List.pairwise_cons.mp sorted
      by_cases below : rank item < place
      · rw [List.filter_cons_of_pos (by simpa using below),
          List.filter_cons_of_neg (by simpa using below), List.cons_append, ← ih sorted]
      · have above : ∀ other ∈ item :: items, place ≤ rank other := by
          have here := Nat.not_lt.mp below
          exact List.forall_mem_cons.mpr ⟨here, fun other member => here.trans (least other member)⟩
        have noneBelow : (item :: items).filter (rank · < place) = [] :=
          List.filter_eq_nil_iff.mpr fun other member => by simpa using above other member
        have allFrom : (item :: items).filter (place ≤ rank ·) = item :: items :=
          List.filter_eq_self.mpr fun other member => by simpa using above other member
        rw [noneBelow, allFrom, List.nil_append]

/-- Items that increase in rank stand in groups of one rank each. -/
theorem eq_groups (bound : Nat) {items : List α}
    (sorted : items.Pairwise fun first second => rank first ≤ rank second)
    (bounded : ∀ item ∈ items, rank item < bound) :
    items = (List.range bound).flatMap fun place => items.filter (rank · = place) := by
  induction bound generalizing items with
  | zero =>
      rw [List.range_zero, List.flatMap_nil, List.eq_nil_iff_forall_not_mem]
      intro item member
      exact Nat.not_lt_zero _ (bounded item member)
  | succ bound ih =>
      have below : ∀ item ∈ items.filter (rank · < bound), rank item < bound :=
        fun item member => of_decide_eq_true (List.mem_filter.mp member).2
      have lower := ih (sorted.filter _) below
      have groups : ∀ place ∈ List.range bound,
          (items.filter (rank · < bound)).filter (rank · = place) =
            items.filter (rank · = place) := by
        intro place member
        have placed := List.mem_range.mp member
        rw [List.filter_filter]
        apply List.filter_congr
        intro item _
        rw [Bool.eq_iff_iff]
        simp only [Bool.and_eq_true, decide_eq_true_eq]
        omega
      have last : items.filter (bound ≤ rank ·) = items.filter (rank · = bound) := by
        apply List.filter_congr
        intro item member
        have limited := bounded item member
        rw [decide_eq_decide]
        omega
      rw [List.flatMap_congr groups] at lower
      rw [List.range_succ, List.flatMap_append, List.flatMap_singleton, ← lower, ← last]
      exact eq_below_append rank bound sorted

/-- Sorting by a rank puts the items into groups of one rank each, in their order. -/
theorem mergeSort_rank_eq_groups (bound : Nat) {items : List α}
    (bounded : ∀ item ∈ items, rank item < bound) :
    (items.mergeSort fun first second => rank first ≤ rank second) =
      (List.range bound).flatMap fun place => items.filter (rank · = place) := by
  have groups := eq_groups rank bound (pairwise_mergeSort_rank rank items)
    fun item member => bounded item (List.mem_mergeSort.mp member)
  rw [groups]
  exact List.flatMap_congr fun place _ => filter_mergeSort_rank rank place items

end Rank


theorem Constraint.kindName_eq_primaryKey_iff (constraint : Constraint) :
    constraint.kindName = "PRIMARY_KEY".toList ↔ constraint = .primaryKey := by
  rw [kindName.eq_def]
  cases constraint <;> simp

namespace Column

/-! ## Groups of columns -/

/-- Whether the name of the column is that of a timestamp, in any case. -/
def hasTimestampName (column : Column) : Bool :=
  timestampNames.contains (Text.lower column.name)

/-- The columns of the primary key, in their order. -/
def keys (columns : List Column) : List Column :=
  columns.filter (·.hasConstraint "PRIMARY_KEY".toList)

/-- The other columns without the name of a timestamp, in their order. -/
def plain (columns : List Column) : List Column :=
  columns.filter fun column =>
    !column.hasConstraint "PRIMARY_KEY".toList && !column.hasTimestampName

/-- The other columns with the name of a timestamp, in their order. -/
def timestamps (columns : List Column) : List Column :=
  columns.filter fun column =>
    !column.hasConstraint "PRIMARY_KEY".toList && column.hasTimestampName

theorem isPrimaryKey_iff {column : Column} :
    column.isPrimaryKey = true ↔ .primaryKey ∈ column.constraints := by
  rw [isPrimaryKey, List.contains_eq_any_beq, List.any_eq_true]
  constructor
  · rintro ⟨constraint, member, same⟩
    cases constraint <;> first | exact member | cases same
  · intro member
    exact ⟨.primaryKey, member, rfl⟩

theorem hasConstraint_primaryKey (column : Column) :
    column.hasConstraint "PRIMARY_KEY".toList = column.isPrimaryKey := by
  rw [Bool.eq_iff_iff, isPrimaryKey_iff, hasConstraint, List.any_eq_true]
  simp only [beq_iff_eq, Constraint.kindName_eq_primaryKey_iff, exists_eq_right]

theorem rank_eq (column : Column) :
    column.rank = if column.hasConstraint "PRIMARY_KEY".toList then 0
      else if column.hasTimestampName then 2 else 1 := by
  rw [hasConstraint_primaryKey]
  rfl

theorem rank_lt (column : Column) : column.rank < 3 := by
  rw [rank_eq]
  split
  · decide
  · split <;> decide

/-- The groups are those of the three ranks. -/
theorem groups_eq (columns : List Column) :
    keys columns = columns.filter (rank · = 0) ∧ plain columns = columns.filter (rank · = 1) ∧
      timestamps columns = columns.filter (rank · = 2) := by
  refine ⟨List.filter_congr ?_, List.filter_congr ?_, List.filter_congr ?_⟩
  all_goals
    intro column _
    rw [rank_eq]
    cases column.hasConstraint "PRIMARY_KEY".toList <;> cases column.hasTimestampName <;> rfl

theorem sortByRank_eq (columns : List Column) :
    sortByRank columns = keys columns ++ plain columns ++ timestamps columns := by
  obtain ⟨keys, plain, timestamps⟩ := groups_eq columns
  rw [keys, plain, timestamps, sortByRank,
    mergeSort_rank_eq_groups rank 3 fun column _ => rank_lt column]
  simp [List.range_succ]

theorem sortByRank_sortByRank (columns : List Column) :
    sortByRank (sortByRank columns) = sortByRank columns := by
  apply List.mergeSort_of_pairwise
  exact (pairwise_mergeSort_rank rank columns).imp decide_eq_true

/-- Columns are sorted into the keys, the plain columns and the timestamps, each group in its
order.  No column is lost or repeated, a second sort changes nothing, and in front of a key
stand only keys, whatever the name of the column is. -/
theorem sorts_into_groups (columns : List Column) :
    sortByRank columns = keys columns ++ plain columns ++ timestamps columns ∧
      (sortByRank columns).Perm columns ∧
      sortByRank (sortByRank columns) = sortByRank columns ∧
      ∀ before column behind, sortByRank columns = before ++ column :: behind →
        column.hasConstraint "PRIMARY_KEY".toList = true →
        column ∈ keys columns ∧
          ∀ other ∈ before, other.hasConstraint "PRIMARY_KEY".toList = true := by
  refine ⟨sortByRank_eq columns, List.mergeSort_perm .., sortByRank_sortByRank columns, ?_⟩
  intro before column behind sorted isKey
  have member : column ∈ sortByRank columns := by
    rw [sorted]
    exact List.mem_append_right before List.mem_cons_self
  refine ⟨List.mem_filter.mpr ⟨List.mem_mergeSort.mp member, isKey⟩, ?_⟩
  intro other otherMem
  have increases := pairwise_mergeSort_rank rank columns
  rw [← sortByRank, sorted, List.pairwise_append] at increases
  have lower := increases.2.2 other otherMem column List.mem_cons_self
  by_contra noKey
  rw [rank_eq column, if_pos isKey, rank_eq other, if_neg noKey] at lower
  split at lower <;> omega

/-- A key with the name of a timestamp. -/
def datedKey : Column where
  name := "created_at".toList
  type := .simple "int".toList none false
  constraints := [.unique, .primaryKey]

/-- Columns of all groups, two of them with one name. -/
def mixedColumns : List Column :=
  let type : ColumnType := .simple "int".toList none false
  [{ name := "Updated_At".toList, type }, { name := "b".toList, type },
   { name := "id".toList, type, constraints := [.primaryKey] }, datedKey,
   { name := "b".toList, type, nullable := true }]

theorem sorts_into_groups_mixedColumns :
    (sortByRank mixedColumns).map (fun column => (String.ofList column.name, column.nullable)) =
        [("id", false), ("created_at", false), ("b", false), ("b", true), ("Updated_At", false)] ∧
      sortByRank (sortByRank mixedColumns) = sortByRank mixedColumns ∧
      datedKey.hasTimestampName = true ∧ datedKey ∈ keys mixedColumns ∧
      ∃ first others, sortByRank mixedColumns = first :: datedKey :: others ∧
        first.hasConstraint "PRIMARY_KEY".toList = true := by
  obtain ⟨groups, _, again, inFront⟩ := sorts_into_groups mixedColumns
  have sorted : sortByRank mixedColumns = [mixedColumns[2]] ++ datedKey ::
      [mixedColumns[1], mixedColumns[4], mixedColumns[0]] := by
    rw [groups]
    decide
  obtain ⟨isKey, others⟩ := inFront _ datedKey _ sorted (by decide)
  refine ⟨?_, again, by decide, isKey, _, _, sorted, others _ List.mem_cons_self⟩
  rw [sorted]
  decide

end Column

end SchemaNotation
