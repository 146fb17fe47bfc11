import TablePlanner.Proofs.Execution.Ordering

/-! Orderings in turn leave one arrangement of the rows: two rows stand as the last ordering that
tells them apart has them, and by their indices if none does. -/
namespace TablePlanner
open Json

namespace Cell
variable {direction : Direction} {a b : Value}

/-- How a cell comes before another in a direction. Every null comes last in both. -/
def Before (direction : Direction) (a b : Value) : Prop :=
  a.isNull = false ∧
    (b.isNull = true ∨
      match direction with
      | .ascending => order a b = .lt
      | .descending => order a b = .gt)

theorem sortOrder_eq_lt_iff :
    sortOrder (direction == .descending) a b = .lt ↔ Before direction a b := by
  have hswap : order b a = .lt ↔ order a b = .gt := by
    rw [← order_swap a b, Ordering.swap_eq_lt]
  unfold Before sortOrder
  cases direction <;> cases a.isNull <;> cases b.isNull <;> simp [hswap]

theorem sortOrder_eq_eq_iff (descending : Bool) :
    sortOrder descending a b = .eq ↔ order a b = .eq := by
  rw [sortOrder_eq, Ordering.then_eq_eq, compare_eq_iff_eq]
  have hside : (if descending then order b a else order a b) = .eq ↔ order a b = .eq := by
    cases descending
    · exact Iff.rfl
    · exact order_eq_comm
  rw [hside]
  exact and_iff_right_of_imp isNull_eq_of_order_eq

theorem Before.not_back (h : Before direction a b) :
    ¬ Before direction b a ∧ order b a ≠ .eq := by
  rw [← sortOrder_eq_lt_iff] at h
  have hback : sortOrder (direction == .descending) b a = .gt := by
    rw [← sortOrder_swap, h, Ordering.swap_lt]
  rw [← sortOrder_eq_lt_iff, ne_eq, ← sortOrder_eq_eq_iff (direction == .descending), hback]
  decide

/-- A cell above another one in a sorted column. No null stands above another cell, and the cells
that are not null do not go down, or do not go up. -/
def InOrder (direction : Direction) (a b : Value) : Prop :=
  (a.isNull = true → b.isNull = true) ∧
    (a.isNull = false → b.isNull = false →
      match direction with
      | .ascending => order a b ≠ .gt
      | .descending => order a b ≠ .lt)

theorem Before.inOrder (h : Before direction a b) : InOrder direction a b := by
  obtain ⟨ha, hb | hlt⟩ := h
  · exact ⟨fun _ => hb, fun _ hsome => absurd hb (by simp [hsome])⟩
  · refine ⟨fun hnull => absurd hnull (by simp [ha]), fun _ _ => ?_⟩
    cases direction <;> simp only at hlt ⊢ <;> rw [hlt] <;> decide

theorem inOrder_of_tie (h : order a b = .eq) : InOrder direction a b := by
  refine ⟨fun hnull => isNull_eq_of_order_eq h ▸ hnull, fun _ _ => ?_⟩
  cases direction <;> simp only <;> rw [h] <;> decide

end Cell

namespace Table
variable {t : Table} {keys : List (String × Direction)} {order : List (Fin t.rows.length)}

/-- How a row stands ahead of another by some columns, of which the first counts most. -/
def AheadBy (t : Table) :
    List (String × Direction) → Fin t.rows.length → Fin t.rows.length → Prop
  | [], i, j => i < j
  | (field, direction) :: keys, i, j =>
    Cell.Before direction (t.cellAt field i) (t.cellAt field j) ∨
      Cell.order (t.cellAt field i) (t.cellAt field j) = .eq ∧ t.AheadBy keys i j

theorem AheadBy.asymm {i j : Fin t.rows.length} (h : t.AheadBy keys i j) :
    ¬ t.AheadBy keys j i := by
  induction keys with
  | nil => exact lt_asymm h
  | cons key keys ih =>
    obtain ⟨field, direction⟩ := key
    rintro (hback | ⟨htie, hback⟩)
    · rcases h with h | ⟨htie, -⟩
      · exact h.not_back.1 hback
      · exact hback.not_back.2 htie
    · rcases h with h | ⟨-, h⟩
      · exact h.not_back.2 htie
      · exact ih h hback

theorem eq_of_pairwise_ahead {other : List (Fin t.rows.length)} (hperm : other.Perm order)
    (h : order.Pairwise (t.AheadBy keys)) (h' : other.Pairwise (t.AheadBy keys)) :
    other = order :=
  hperm.eq_of_pairwise (fun _ _ _ _ hij hji => absurd hji hij.asymm) h' h

theorem exists_sorted {field : String} (hfield : field ∈ t.columns)
    (hcells : Cell.Unmixed (t.columnOf field)) (direction : Direction)
    (h : order.Pairwise (t.AheadBy keys)) :
    ∃ sorted : List (Fin t.rows.length), sorted.Perm order ∧
      sorted.Pairwise (t.AheadBy ((field, direction) :: keys)) ∧
      Table.orderBy ⟨t.columns, order.map t.rows.get⟩ field direction =
        (⟨t.columns, sorted.map t.rows.get⟩, []) := by
  obtain ⟨sorted, hperm, horder, hsorted⟩ := orderBy_picked hfield hcells direction h
  refine ⟨sorted, hperm, hsorted.imp ?_, horder⟩
  intro i j hahead
  rwa [Cell.sortOrder_eq_lt_iff, Cell.sortOrder_eq_eq_iff] at hahead

/-- All rows by their indices, each ahead of those after it. -/
structure Arranged (t : Table) (keys : List (String × Direction))
    (order : List (Fin t.rows.length)) : Prop where
  perm : order.Perm (List.finRange t.rows.length)
  ahead : order.Pairwise (t.AheadBy keys)

theorem arranged_finRange (t : Table) : t.Arranged [] (List.finRange t.rows.length) :=
  ⟨.refl _, List.pairwise_lt_finRange _⟩

theorem Arranged.unique {other : List (Fin t.rows.length)} (h : t.Arranged keys order)
    (h' : t.Arranged keys other) : other = order :=
  eq_of_pairwise_ahead (h'.perm.trans h.perm.symm) h.ahead h'.ahead

theorem Arranged.orderBy (h : t.Arranged keys order) {field : String} (hfield : field ∈ t.columns)
    (hcells : Cell.Unmixed (t.columnOf field)) (direction : Direction) :
    ∃ sorted, t.Arranged ((field, direction) :: keys) sorted ∧
      Table.orderBy ⟨t.columns, order.map t.rows.get⟩ field direction =
        (⟨t.columns, sorted.map t.rows.get⟩, []) := by
  obtain ⟨sorted, hperm, hsorted, hstep⟩ := exists_sorted hfield hcells direction h.ahead
  exact ⟨sorted, ⟨hperm.trans h.perm, hsorted⟩, hstep⟩

/-- The operations that order by some columns in turn. -/
def orderings (keys : List (String × Direction)) : List Operation :=
  keys.map fun key => .orderBy key.1 key.2

theorem Arranged.run (h : t.Arranged keys order) (id : String) (index : Nat)
    {more : List (String × Direction)}
    (hmore : ∀ key ∈ more, key.1 ∈ t.columns ∧ Cell.Unmixed (t.columnOf key.1)) :
    ∃ sorted, t.Arranged (more.reverse ++ keys) sorted ∧
      runFrom id index ⟨t.columns, order.map t.rows.get⟩ (orderings more) =
        .ok (⟨t.columns, sorted.map t.rows.get⟩, []) := by
  induction more generalizing keys order index with
  | nil => exact ⟨order, h, rfl⟩
  | cons key more ih =>
    obtain ⟨field, direction⟩ := key
    rw [List.forall_mem_cons] at hmore
    obtain ⟨next, hnext, hstep⟩ := h.orderBy hmore.1.1 hmore.1.2 direction
    obtain ⟨sorted, hsorted, hrun⟩ := ih hnext (index + 1) hmore.2
    refine ⟨sorted, ?_, ?_⟩
    · simpa using hsorted
    · simp only [orderings, List.map_cons, runFrom, Operation.apply, hstep]
      rw [orderings] at hrun
      rw [hrun]
      rfl

/-- One ordering puts the rows into the order of their cells, and rows whose cells tie stay in the
order of their indices. Orderings in turn arrange the rows by all of their columns, the last one
first, and no other arrangement of the rows does. -/
theorem orderings_sort_stably (t : Table) :
    (∀ field direction, field ∈ t.columns → Cell.Unmixed (t.columnOf field) →
      ∃ order : List (Fin t.rows.length), order.Perm (List.finRange t.rows.length) ∧
        t.orderBy field direction = (⟨t.columns, order.map t.rows.get⟩, []) ∧
        order.Pairwise fun i j =>
          Cell.InOrder direction (t.cellAt field i) (t.cellAt field j) ∧
            (Cell.order (t.cellAt field i) (t.cellAt field j) = .eq → i < j)) ∧
    ∀ (id : String) (index : Nat) (keys : List (String × Direction)),
      (∀ key ∈ keys, key.1 ∈ t.columns ∧ Cell.Unmixed (t.columnOf key.1)) →
      ∃ order, t.Arranged keys.reverse order ∧
        (∀ other, t.Arranged keys.reverse other → other = order) ∧
        runFrom id index t (orderings keys) = .ok (⟨t.columns, order.map t.rows.get⟩, []) := by
  have hrows : (List.finRange t.rows.length).map t.rows.get = t.rows := List.map_get_finRange _
  constructor
  · intro field direction hfield hcells
    obtain ⟨order, hordered, hstep⟩ := t.arranged_finRange.orderBy hfield hcells direction
    rw [hrows] at hstep
    refine ⟨order, hordered.perm, hstep, hordered.ahead.imp ?_⟩
    rintro i j (hbefore | ⟨htie, hlt⟩)
    · have hforth : Cell.order (t.cellAt field i) (t.cellAt field j) ≠ .eq := fun htie =>
        hbefore.not_back.2 (Cell.order_eq_comm.1 htie)
      exact ⟨hbefore.inOrder, fun htie => absurd htie hforth⟩
    · exact ⟨Cell.inOrder_of_tie htie, fun _ => hlt⟩
  · intro id index keys hkeys
    obtain ⟨order, hordered, hrun⟩ := t.arranged_finRange.run id index hkeys
    rw [hrows] at hrun
    rw [List.append_nil] at hordered
    exact ⟨order, hordered, fun other hother => hordered.unique hother, hrun⟩

def mixture : Table where
  columns := ["Row", "Cell", "Mark"]
  rows :=
    [[.int 0, .int 2, .bool true], [.int 1, .null, .bool true],
     [.int 2, .array [.int 7], .bool false],
     [.int 3, .number (.float (.ofInt 2)), .bool true], [.int 4, .string "b", .null],
     [.int 5, .object [("k", .null)], .bool true], [.int 6, .null, .bool false]]

theorem mixture_sorts_stably :
    (∃ order : List (Fin mixture.rows.length), order.Perm (List.finRange mixture.rows.length) ∧
      mixture.orderBy "Cell" .descending = (⟨mixture.columns, order.map mixture.rows.get⟩, []) ∧
      order.Pairwise fun i j =>
        Cell.InOrder .descending (mixture.cellAt "Cell" i) (mixture.cellAt "Cell" j) ∧
          (Cell.order (mixture.cellAt "Cell" i) (mixture.cellAt "Cell" j) = .eq → i < j)) ∧
    (∃ order, mixture.Arranged [("Mark", .ascending), ("Cell", .descending)] order ∧
      runFrom "r" 0 mixture [.orderBy "Cell" .descending, .orderBy "Mark" .ascending] =
        .ok (⟨mixture.columns, order.map mixture.rows.get⟩, [])) ∧
    (mixture.orderBy "Cell" .descending).1.rows.map (fun row => (cell row 0).render) =
      ["5", "2", "4", "0", "3", "1", "6"] ∧
    ((mixture.orderBy "Cell" .descending).1.orderBy "Mark" .ascending).1.rows.map
        (fun row => (cell row 0).render) =
      ["2", "6", "5", "0", "3", "1", "4"] := by
  have hcells : Cell.Unmixed (mixture.columnOf "Cell") := by
    intro x n _ hn
    simp [columnOf, cellOf, cell, mixture, Value.int] at hn
    rw [hn]
    decide
  have hmarks : Cell.Unmixed (mixture.columnOf "Mark") := by
    intro x n hx
    simp [columnOf, cellOf, cell, mixture] at hx
  have hkeys : ∀ key ∈ [("Cell", Direction.descending), ("Mark", .ascending)],
      key.1 ∈ mixture.columns ∧ Cell.Unmixed (mixture.columnOf key.1) := by
    simpa [mixture] using ⟨hcells, hmarks⟩
  obtain ⟨hone, hall⟩ := orderings_sort_stably mixture
  obtain ⟨order, hordered, -, hrun⟩ := hall "r" 0 _ hkeys
  refine ⟨hone "Cell" .descending (by decide) hcells, ⟨order, hordered, hrun⟩, ?_, ?_⟩
  · decide +kernel
  · decide +kernel

end Table
end TablePlanner
