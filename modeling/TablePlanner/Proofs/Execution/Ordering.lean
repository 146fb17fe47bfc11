import TablePlanner.Proofs.Cell.Place
import TablePlanner.Proofs.Execution.Notes
import TablePlanner.Proofs.Order.Stability

namespace TablePlanner
open Json

namespace Table
variable {t : Table} {field : String}

/-- The cell of the row with an index in the column of a name. -/
def cellAt (t : Table) (name : String) (i : Fin t.rows.length) : Value :=
  t.cellOf (t.rows.get i) name

theorem cellAt_mem (t : Table) (name : String) (i : Fin t.rows.length) :
    t.cellAt name i ∈ t.columnOf name :=
  cellOf_mem (List.get_mem t.rows i) name

/-- How a row is sorted ahead of another: by its cell, or by its index if the cells are equal. -/
def SortsAhead (t : Table) (field : String) (direction : Direction) (i j : Fin t.rows.length) :
    Prop :=
  Cell.sortOrder (direction == .descending) (t.cellAt field i) (t.cellAt field j) = .lt ∨
    Cell.sortOrder (direction == .descending) (t.cellAt field i) (t.cellAt field j) = .eq ∧ i < j

/-- An ordering of some rows of a table. The relation `R` is that of an earlier row to a later one
before the ordering. -/
theorem orderBy_picked (hfield : field ∈ t.columns) (hcells : Cell.Unmixed (t.columnOf field))
    (direction : Direction) {picked : List (Fin t.rows.length)}
    {R : Fin t.rows.length → Fin t.rows.length → Prop} (hpicked : picked.Pairwise R) :
    ∃ order : List (Fin t.rows.length), order.Perm picked ∧
      Table.orderBy ⟨t.columns, picked.map t.rows.get⟩ field direction =
        (⟨t.columns, order.map t.rows.get⟩, []) ∧
      order.Pairwise fun i j =>
        Cell.sortOrder (direction == .descending) (t.cellAt field i) (t.cellAt field j) = .lt ∨
          Cell.sortOrder (direction == .descending) (t.cellAt field i) (t.cellAt field j) = .eq ∧
            R i j := by
  obtain ⟨c, hc⟩ := exists_columnIndex?_iff.2 hfield
  have hplace : columnIndex? ⟨t.columns, picked.map t.rows.get⟩ field = some c := hc
  obtain ⟨L, _, level, hlevel⟩ := hcells.exists_level (direction == .descending)
  have hsort : ∀ i j,
      Cell.sortOrder (direction == .descending) (t.cellAt field i) (t.cellAt field j) =
        compare (level (t.cellAt field i)) (level (t.cellAt field j)) := fun i j =>
    hlevel _ (t.cellAt_mem field i) _ (t.cellAt_mem field j)
  have hless : ∀ i j, rowLess c direction (t.rows.get i) (t.rows.get j) = true ↔
      level (t.cellAt field i) < level (t.cellAt field j) := by
    intro i j
    rw [← compare_lt_iff_lt, ← hsort, rowLess, ← cellOf_of_columnIndex? hc,
      ← cellOf_of_columnIndex? hc, beq_iff_eq]
    rfl
  refine ⟨stableSort (fun i j => rowLess c direction (t.rows.get i) (t.rows.get j)) picked,
    stableSort_perm _ _, ?_, ?_⟩
  · simp only [Table.orderBy, hplace]
    rw [map_stableSort]
  · apply (stableSort_ahead (fun i _ j _ => hless i j) hpicked).imp
    intro i j hahead
    rw [hsort, compare_lt_iff_lt, compare_eq_iff_eq]
    exact hahead

theorem exists_order (hfield : field ∈ t.columns) (hcells : Cell.Unmixed (t.columnOf field))
    (direction : Direction) :
    ∃ order : List (Fin t.rows.length), order.Perm (List.finRange t.rows.length) ∧
      (t.orderBy field direction).1 = ⟨t.columns, order.map t.rows.get⟩ ∧
      order.Pairwise (t.SortsAhead field direction) := by
  obtain ⟨order, hperm, horder, hsorted⟩ :=
    orderBy_picked hfield hcells direction (List.pairwise_lt_finRange t.rows.length)
  rw [List.map_get_finRange] at horder
  exact ⟨order, hperm, congrArg Prod.fst horder, hsorted⟩

end Table

/-- Whether a cell is at least another one, where a null is the least. -/
def Cell.AtLeast (a b : Value) : Prop :=
  b.isNull = true ∨ a.isNull = false ∧ order b a ≠ .gt

theorem Cell.atLeast_iff {a b : Value} : AtLeast a b ↔ sortOrder true a b ≠ .gt := by
  unfold AtLeast sortOrder
  cases a.isNull <;> cases b.isNull <;> simp

namespace Table

/-- The rows of a table with the greatest cells of a column, at most `count` of them. -/
structure Top (t : Table) (field : String) (count : Nat) (u : Table) : Prop where
  columns : u.columns = t.columns
  rows : ∃ kept : List (Fin t.rows.length), kept.Nodup ∧ u.rows = kept.map t.rows.get ∧
    kept.length = min count t.height ∧
    (kept.Pairwise fun i j => Cell.AtLeast (t.cellAt field i) (t.cellAt field j) ∧
      (Cell.AtLeast (t.cellAt field j) (t.cellAt field i) → i < j)) ∧
    ∀ i, i ∉ kept → ∀ j ∈ kept, Cell.AtLeast (t.cellAt field j) (t.cellAt field i)

variable {t : Table} {field : String}

theorem SortsAhead.atLeast {i j : Fin t.rows.length} (h : t.SortsAhead field .descending i j) :
    Cell.AtLeast (t.cellAt field i) (t.cellAt field j) ∧
      (Cell.AtLeast (t.cellAt field j) (t.cellAt field i) → i < j) := by
  rw [Cell.atLeast_iff, Cell.atLeast_iff,
    ← Cell.sortOrder_swap true (t.cellAt field i) (t.cellAt field j)]
  rcases h with hlt | ⟨heq, hij⟩
  · have hlt : Cell.sortOrder true (t.cellAt field i) (t.cellAt field j) = .lt := hlt
    rw [hlt]
    exact ⟨by decide, fun hnot => absurd rfl hnot⟩
  · have heq : Cell.sortOrder true (t.cellAt field i) (t.cellAt field j) = .eq := heq
    rw [heq]
    exact ⟨by decide, fun _ => hij⟩

theorem top_of_orderBy (hfield : field ∈ t.columns) (hcells : Cell.Unmixed (t.columnOf field))
    (count : Nat) : Top t field count ((t.orderBy field .descending).1.head count) := by
  obtain ⟨order, hperm, horder, hsorted⟩ := exists_order hfield hcells .descending
  rw [horder]
  refine ⟨rfl, order.take count, ?_, ?_, ?_, ?_, ?_⟩
  · exact (hperm.nodup_iff.2 (List.nodup_finRange _)).sublist (List.take_sublist _ _)
  · simp [head]
  · rw [List.length_take, hperm.length_eq, List.length_finRange, height]
  · exact (hsorted.sublist (List.take_sublist _ _)).imp SortsAhead.atLeast
  · intro i hi j hj
    have hall : i ∈ order.take count ++ order.drop count := by
      rw [List.take_append_drop]
      exact hperm.mem_iff.2 (List.mem_finRange i)
    have hdropped : i ∈ order.drop count := (List.mem_append.1 hall).resolve_left hi
    rw [← List.take_append_drop count order, List.pairwise_append] at hsorted
    exact (hsorted.2.2 j hj i hdropped).atLeast.1

end Table
end TablePlanner
