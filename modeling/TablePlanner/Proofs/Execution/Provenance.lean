import TablePlanner.Proofs.Execution.Notes
import TablePlanner.Proofs.Order.Stability

namespace TablePlanner
open Json

namespace Table

/-- A table whose rows are rows of another, each at most once, cut to some of its columns. -/
structure ComesFrom (u t : Table) : Prop where
  nodup : u.columns.Nodup
  columns : ∀ name ∈ u.columns, name ∈ t.columns
  origin : ∃ origin : Fin u.rows.length → Fin t.rows.length, origin.Injective ∧
    ∀ i, ∀ name ∈ u.columns,
      u.cellOf (u.rows.get i) name = t.cellOf (t.rows.get (origin i)) name

theorem ComesFrom.refl {t : Table} (h : t.columns.Nodup) : t.ComesFrom t where
  nodup := h
  columns _ hname := hname
  origin := ⟨id, Function.injective_id, fun _ _ _ => rfl⟩

theorem ComesFrom.trans {s t u : Table} (h : u.ComesFrom t) (h' : t.ComesFrom s) :
    u.ComesFrom s := by
  obtain ⟨f, hf, hcells⟩ := h.origin
  obtain ⟨g, hg, hcells'⟩ := h'.origin
  refine ⟨h.nodup, fun name hname => h'.columns name (h.columns name hname), g ∘ f, hg.comp hf, ?_⟩
  intro i name hname
  exact (hcells i name hname).trans (hcells' (f i) name (h.columns name hname))

theorem ComesFrom.of_picked {t : Table} (h : t.columns.Nodup) {picked : List (Fin t.rows.length)}
    (hpicked : picked.Nodup) : ComesFrom ⟨t.columns, picked.map t.rows.get⟩ t where
  nodup := h
  columns _ hname := hname
  origin := by
    refine ⟨fun i => picked.get (i.cast (List.length_map _)), ?_, ?_⟩
    · exact hpicked.injective_get.comp (Fin.cast_injective _)
    · intro i name _
      simp [cellOf]

theorem cellOf_pickCells {t : Table} {fields : List String} {name : String}
    (hname : name ∈ t.pickColumns (t.knownColumns fields)) (row : Row) :
    cell (pickCells (t.knownColumns fields) row)
        ((t.pickColumns (t.knownColumns fields)).idxOf name) = t.cellOf row name := by
  generalize hj : (t.pickColumns (t.knownColumns fields)).idxOf name = j
  have hpicked : j < (t.pickColumns (t.knownColumns fields)).length := by
    rw [← hj]
    exact List.idxOf_lt_length_of_mem hname
  have hlt : j < (t.knownColumns fields).length := by
    simpa [pickColumns] using hpicked
  have hat : (t.pickColumns (t.knownColumns fields))[j] = name := by
    subst hj
    exact List.getElem_idxOf _
  obtain ⟨field, -, hfield⟩ := mem_knownColumns.1 (List.getElem_mem hlt)
  have hsame : field = name := by
    rw [← hat, ← getD_of_columnIndex? hfield]
    simp [pickColumns]
  rw [← hsame, cellOf_of_columnIndex? hfield]
  simp [cell, pickCells, hlt]

theorem ComesFrom.of_select {t : Table} (h : t.columns.Nodup) (fields : List String) :
    (t.select fields).1.ComesFrom t := by
  unfold Table.select
  split
  · exact .refl h
  · dsimp only
    split
    · exact .refl h
    · refine ⟨nodup_pickColumns h fields, ?_, ?_⟩
      · intro name hname
        rw [pickColumns_knownColumns] at hname
        exact (mem_present.1 hname).2
      · refine ⟨Fin.cast (List.length_map _), Fin.cast_injective _, ?_⟩
        intro i name hname
        simpa [cellOf] using cellOf_pickCells hname (t.rows.get (i.cast (List.length_map _)))

theorem ComesFrom.of_filter {t : Table} (h : t.columns.Nodup) (field : String) (value : Value) :
    (t.filter field value).1.ComesFrom t := by
  unfold Table.filter
  split
  · exact .refl h
  · next i _ =>
    have hrows : (t.rows.filter fun row => Cell.equal (cell row i) value) =
        ((List.finRange t.rows.length).filter fun j =>
          Cell.equal (cell (t.rows.get j) i) value).map t.rows.get := by
      conv_lhs => rw [← List.map_get_finRange t.rows, List.filter_map]
      rfl
    rw [hrows]
    exact .of_picked h ((List.nodup_finRange _).filter _)

theorem ComesFrom.of_orderBy {t : Table} (h : t.columns.Nodup) (field : String)
    (direction : Direction) : (t.orderBy field direction).1.ComesFrom t := by
  unfold Table.orderBy
  split
  · exact .refl h
  · rw [stableSort_eq_map_get]
    exact .of_picked h ((stableSort_perm _ _).nodup_iff.2 (List.nodup_finRange _))

theorem ComesFrom.of_limit {t : Table} (h : t.columns.Nodup) (count : Int) :
    (t.limit count).1.ComesFrom t := by
  unfold Table.limit
  split
  · exact .refl h
  · have hrows : t.rows.take count.toNat =
        ((List.finRange t.rows.length).take count.toNat).map t.rows.get := by
      rw [List.map_take, List.map_get_finRange]
    unfold head
    rw [hrows]
    exact .of_picked h ((List.nodup_finRange _).sublist (List.take_sublist _ _))

end Table

section
variable {t u result : Table} {op : Operation} {ops : List Operation} {notes : List Note}
  {id : String} {index : Nat} {trace : List Diagnostic}

theorem eq_fst_of_ok {applied : α × β} {a : α} {b : β}
    (h : (.ok applied : Except ε (α × β)) = .ok (a, b)) : a = applied.1 := by
  cases h
  rfl

theorem Operation.comesFrom_of_apply (h : t.WellFormed) (hkind : op.kind ≠ "GROUP_BY")
    (happly : op.apply t = .ok (u, notes)) : u.ComesFrom t := by
  cases op with
  | select fields =>
    rw [eq_fst_of_ok happly]
    exact .of_select h.1 fields
  | filter field value =>
    rw [eq_fst_of_ok happly]
    exact .of_filter h.1 field value
  | groupBy keys aggregations => exact absurd rfl hkind
  | orderBy field direction =>
    rw [eq_fst_of_ok happly]
    exact .of_orderBy h.1 field direction
  | limit count =>
    rw [eq_fst_of_ok happly]
    exact .of_limit h.1 count

theorem comesFrom_of_runFrom (h : t.WellFormed) (hkinds : ∀ op ∈ ops, op.kind ≠ "GROUP_BY")
    (hrun : runFrom id index t ops = .ok (result, trace)) : result.ComesFrom t := by
  induction ops generalizing index t trace with
  | nil =>
    cases hrun
    exact .refl h.1
  | cons op ops ih =>
    rw [List.forall_mem_cons] at hkinds
    obtain ⟨u, notes, rest, happly, hrest, -⟩ := runFrom_cons_ok hrun
    have hstep := Operation.comesFrom_of_apply h hkinds.1 happly
    exact (ih (h.of_apply happly) hkinds.2 hrest).trans hstep

namespace Grouping

theorem length_addRow_le (key : Key) (row : Row) (groups : List Group) :
    (addRow key row groups).length ≤ groups.length + 1 := by
  induction groups with
  | nil => exact Nat.le_refl _
  | cons g groups ih =>
    unfold addRow
    split
    · exact Nat.le_refl _
    · exact Nat.le_succ _
    · exact Nat.succ_le_succ ih

theorem length_ofRows_le (keys : List Nat) (rows : List Row) :
    (ofRows keys rows).length ≤ rows.length := by
  have collected : ∀ (rest : List Row) (groups : List Group),
      (rest.foldl (fun groups row => addRow (Table.pickCells keys row) row groups) groups).length ≤
        groups.length + rest.length := by
    intro rest
    induction rest with
    | nil => exact fun _ => Nat.le_refl _
    | cons row rest ih =>
      intro groups
      have hone := length_addRow_le (Table.pickCells keys row) row groups
      have hrest := ih (addRow (Table.pickCells keys row) row groups)
      rw [List.foldl_cons, List.length_cons]
      omega
  have hkept := List.length_filter_le (!hasNullKey keys ·) rows
  have hgroups := collected (rows.filter (!hasNullKey keys ·)) []
  rw [List.length_nil] at hgroups
  unfold ofRows
  omega

end Grouping

theorem Operation.height_le_of_apply (happly : op.apply t = .ok (u, notes)) :
    u.height ≤ t.height := by
  unfold Table.height
  cases op with
  | select fields =>
    rw [eq_fst_of_ok happly]
    unfold Table.select
    split
    · exact Nat.le_refl _
    · dsimp only
      split
      · exact Nat.le_refl _
      · simp
  | filter field value =>
    rw [eq_fst_of_ok happly]
    unfold Table.filter
    split
    · exact Nat.le_refl _
    · exact List.length_filter_le _ _
  | groupBy keys aggregations =>
    rcases Table.groupBy_ok happly with ⟨-, rfl, -⟩ | ⟨-, rows, rfl, hrows, -⟩
    · exact Nat.le_refl _
    · rw [← hrows.length_eq]
      exact Grouping.length_ofRows_le _ _
  | orderBy field direction =>
    rw [eq_fst_of_ok happly]
    unfold Table.orderBy
    split
    · exact Nat.le_refl _
    · exact (stableSort_perm _ _).length_eq.le
  | limit count =>
    rw [eq_fst_of_ok happly]
    unfold Table.limit
    split
    · exact Nat.le_refl _
    · exact List.length_take_le' _ _

theorem height_le_of_runFrom (hrun : runFrom id index t ops = .ok (result, trace)) :
    result.height ≤ t.height := by
  induction ops generalizing index t trace with
  | nil =>
    cases hrun
    exact Nat.le_refl _
  | cons op ops ih =>
    obtain ⟨u, notes, rest, happly, hrest, -⟩ := runFrom_cons_ok hrun
    exact (ih hrest).trans (Operation.height_le_of_apply happly)

end
end TablePlanner
