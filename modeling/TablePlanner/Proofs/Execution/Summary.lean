import Mathlib.Algebra.Ring.Int.Defs
import TablePlanner.Proofs.Execution.Classes
import TablePlanner.Proofs.Execution.Ordering
import TablePlanner.Proofs.Execution.SingleKey

namespace TablePlanner
open Json

namespace Totals

theorem foldlM_addCell {ns : List Int} {t : Totals} {a : Int} (hwhole : t.whole = some a)
    (hns : ∀ n ∈ ns, Number.Signed n) (hsums : ∀ k, Number.Signed (a + (ns.take k).sum)) :
    ∃ u, (ns.map Value.int).foldlM addCell t = .ok u ∧ u.whole = some (a + ns.sum) := by
  induction ns generalizing t a with
  | nil => exact ⟨t, rfl, by simpa using hwhole⟩
  | cons n ns ih =>
    rw [List.forall_mem_cons] at hns
    have hfirst : Number.Signed (a + n) := by simpa using hsums 1
    have hadd : (t.add (.integer n)).whole = some (a + n) := by
      simp only [add, hwhole, addWhole]
      exact if_pos ⟨hns.1, hfirst⟩
    have hrest : ∀ k, Number.Signed (a + n + (ns.take k).sum) := by
      intro k
      simpa [Int.add_assoc] using hsums (k + 1)
    obtain ⟨u, hu, hsum⟩ := ih hadd hns.2 hrest
    refine ⟨u, hu, ?_⟩
    rw [hsum, List.sum_cons, Int.add_assoc]

end Totals

def Cell.integer? : Value → Option Int
  | .number (.integer n) => some n
  | _ => none

/-- A null, or an integer of 64 signed bits. -/
def Cell.IsAmount (v : Value) : Prop := v = .null ∨ ∃ n, v = .int n ∧ Number.Signed n

section
variable {cells : List Value}

theorem present_of_isAmount (h : ∀ v ∈ cells, Cell.IsAmount v) :
    cells.filter (!·.isNull) = (cells.filterMap Cell.integer?).map .int := by
  induction cells with
  | nil => rfl
  | cons v cells ih =>
    rw [List.forall_mem_cons] at h
    rcases h.1 with rfl | ⟨n, rfl, -⟩
    · exact ih h.2
    · have htail := ih h.2
      simp [Value.int, Value.isNull, Cell.integer?] at htail ⊢
      exact htail

theorem sum_of_isAmount (h : ∀ v ∈ cells, Cell.IsAmount v)
    (hsums : ∀ k, Number.Signed ((cells.filterMap Cell.integer?).take k).sum) :
    Aggregate.sum.ofCells cells = .ok (.int (cells.filterMap Cell.integer?).sum) := by
  have hns : ∀ n ∈ cells.filterMap Cell.integer?, Number.Signed n := by
    intro n hn
    obtain ⟨v, hv, hvn⟩ := List.mem_filterMap.1 hn
    rcases h v hv with rfl | ⟨m, rfl, hm⟩
    · cases hvn
    · cases hvn
      exact hm
  have hstart : Totals.zero.whole = some 0 := rfl
  obtain ⟨u, hu, hwhole⟩ := Totals.foldlM_addCell hstart hns (by simpa using hsums)
  have hcells : Totals.ofCells (cells.filter (!·.isNull)) = .ok u := by
    rw [present_of_isAmount h]
    exact hu
  have hsum : u.sum = .int (cells.filterMap Cell.integer?).sum := by
    rw [Totals.sum, hwhole, Int.zero_add]
  simp only [Aggregate.ofCells, hcells, ← hsum]
  rfl

end

namespace Table

def amountsOf (t : Table) (field : String) (rows : List Row) : List Int :=
  rows.filterMap fun row => Cell.integer? (t.cellOf row field)

/-- What a summary shows for some rows: the total of a column, or their number. -/
def summaryOf (t : Table) (a : Aggregation) (rows : List Row) : Int :=
  if a.op = .sum then (t.amountsOf a.field rows).sum else rows.length

/-- Whether a column has integers of 64 signed bits, nulls aside, and so has each partial sum in a
group of another column. -/
structure Summable (t : Table) (field amount : String) : Prop where
  cells : ∀ v ∈ t.columnOf amount, Cell.IsAmount v
  sums : ∀ key ∈ t.columnOf field, key.isNull = false → ∀ k,
    Number.Signed ((t.amountsOf amount (t.groupOf field key)).take k).sum

/-- A summary of a table by a key, sorted by its numbers downwards. A row shows the first key cell
of its group, and groups with equal numbers ascend. -/
structure IsSummary (t : Table) (field : String) (a : Aggregation) (u : Table) : Prop where
  columns : u.columns = [field, a.label]
  rows : ∃ keys : List Value,
    u.rows = keys.map (fun key => [key, .int (t.summaryOf a (t.groupOf field key))]) ∧
    (∀ key ∈ keys, key.isNull = false ∧
      ∃ first rest, t.groupOf field key = first :: rest ∧ key = t.cellOf first field) ∧
    (∀ v ∈ t.columnOf field, v.isNull = false → ∃ key ∈ keys, Cell.order key v = .eq) ∧
    (keys.Pairwise fun key other => Cell.order key other ≠ .eq) ∧
    keys.Pairwise fun key other =>
      t.summaryOf a (t.groupOf field other) < t.summaryOf a (t.groupOf field key) ∨
        t.summaryOf a (t.groupOf field other) = t.summaryOf a (t.groupOf field key) ∧
          Cell.order key other = .lt

end Table

namespace Table
variable {t : Table} {field : String} {c : Nat}

theorem classOf_single (hfield : field ∈ t.columns) (row : Row) :
    t.classOf [field] row = t.groupOf field (t.cellOf row field) := by
  apply List.filter_congr
  intro other _
  rw [Bool.eq_iff_iff, decide_eq_true_iff, beq_iff_eq, Ties, present_single hfield]
  exact List.forall_mem_singleton

theorem order_of_precedes_single {r s : Row} (hfield : field ∈ t.columns)
    (h : t.Precedes [field] r s) : Cell.order (t.cellOf r field) (t.cellOf s field) = .lt := by
  obtain ⟨before, key, after, hsplit, -, hlt⟩ := h
  rw [present_single hfield] at hsplit
  have hkey : key ∈ [field] := hsplit ▸ (by simp)
  rwa [List.mem_singleton.1 hkey] at hlt

theorem groups_of_unmixed (hc : t.columnIndex? field = some c)
    (hcells : Cell.Unmixed (t.columnOf field)) :
    ∃ keys : List Value,
      Grouping.ofRows [c] t.rows = keys.map (fun key => ⟨[key], t.groupOf field key⟩) ∧
      (∀ key ∈ keys, key.isNull = false ∧
        ∃ first rest, t.groupOf field key = first :: rest ∧ key = t.cellOf first field) ∧
      (∀ v ∈ t.columnOf field, v.isNull = false → ∃ key ∈ keys, Cell.order key v = .eq) ∧
      keys.Pairwise fun key other => Cell.order key other = .lt := by
  have hfield : field ∈ t.columns := exists_columnIndex?_iff.1 ⟨c, hc⟩
  have hkeys : ∀ key ∈ t.present [field], Cell.Unmixed (t.columnOf key) := by
    rw [present_single hfield]
    exact List.forall_mem_singleton.2 hcells
  have hnull : ∀ row, t.hasNullAmong [field] row = (t.cellOf row field).isNull := by
    intro row
    simp [hasNullAmong, present_single hfield]
  obtain ⟨firsts, hclasses, hgroups⟩ := exists_classes hkeys
  rw [knownColumns_single hc] at hgroups
  -- A group is determined by the one cell that it shows.
  refine ⟨firsts.map (t.cellOf · field), ?_, ?_, ?_, ?_⟩
  · rw [hgroups, List.map_map]
    apply List.map_congr_left
    intro first _
    rw [present_single hfield, classOf_single hfield]
    rfl
  · intro key hkey
    obtain ⟨first, hfirst, rfl⟩ := List.mem_map.1 hkey
    obtain ⟨-, hpresent, hearliest⟩ := hclasses.earliest first hfirst
    obtain ⟨rest, hrest⟩ := List.head?_eq_some_iff.1 hearliest
    rw [classOf_single hfield] at hrest
    exact ⟨(hnull first).symm.trans hpresent, first, rest, hrest, rfl⟩
  · intro v hv hpresent
    obtain ⟨row, hrow, rfl⟩ := List.mem_map.1 hv
    obtain ⟨first, hfirst, hties⟩ := hclasses.covered row hrow ((hnull row).trans hpresent)
    refine ⟨_, List.mem_map_of_mem hfirst, hties field ?_⟩
    rw [present_single hfield]
    exact List.mem_singleton_self field
  · rw [List.pairwise_map]
    exact hclasses.ascending.imp fun hprecedes => order_of_precedes_single hfield hprecedes

end Table

section
variable {t : Table} {field : String} {a : Aggregation} {source : Option Nat} {rows : List Row}

namespace Grouping

theorem value_of_count (hop : a.op = .count) (hsource : source? t a = some source) :
    Accepted.value ⟨a, source⟩ rows = .ok (.int (t.summaryOf a rows)) := by
  have hnone : source = none := by
    rw [source?, if_pos hop] at hsource
    exact (Option.some.inj hsource).symm
  have hsum : ¬ a.op = .sum := by
    rw [hop]
    decide
  rw [hnone, Table.summaryOf, if_neg hsum]
  rfl

theorem value_of_sum (hop : a.op = .sum) (hsource : source? t a = some source)
    (hcells : ∀ row ∈ rows, Cell.IsAmount (t.cellOf row a.field))
    (hsums : ∀ k, Number.Signed ((t.amountsOf a.field rows).take k).sum) :
    Accepted.value ⟨a, source⟩ rows = .ok (.int (t.summaryOf a rows)) := by
  have hcount : ¬ a.op = .count := by
    rw [hop]
    decide
  rw [source?, if_neg hcount] at hsource
  obtain ⟨i, hi, rfl⟩ := Option.map_eq_some_iff.1 hsource
  have hcolumn : rows.map (Table.cell · i) = rows.map (t.cellOf · a.field) :=
    List.map_congr_left fun row _ => (Table.cellOf_of_columnIndex? hi row).symm
  have hamounts : t.amountsOf a.field rows =
      (rows.map (t.cellOf · a.field)).filterMap Cell.integer? := by
    rw [List.filterMap_map]
    rfl
  rw [hamounts] at hsums
  have hsum := sum_of_isAmount (List.forall_mem_map.2 hcells) hsums
  rw [Table.summaryOf, if_pos hop, hamounts]
  simp only [Accepted.value, hop, hcolumn, hsum]

end Grouping

namespace Table

theorem exists_groupBy (hfield : field ∈ t.columns) (hcells : Cell.Unmixed (t.columnOf field))
    (ha : a.HasSource t) (hlabel : a.label ≠ field)
    (hop : a.op = .count ∨ a.op = .sum ∧ t.Summable field a.field) :
    ∃ (keys : List Value) (notes : List Note),
      t.groupBy [field] [a] = .ok (⟨[field, a.label],
        keys.map fun key => [key, .int (t.summaryOf a (t.groupOf field key))]⟩, notes) ∧
      (∀ key ∈ keys, key.isNull = false ∧
        ∃ first rest, t.groupOf field key = first :: rest ∧ key = t.cellOf first field) ∧
      (∀ v ∈ t.columnOf field, v.isNull = false → ∃ key ∈ keys, Cell.order key v = .eq) ∧
      keys.Pairwise fun key other => Cell.order key other = .lt := by
  obtain ⟨c, hc⟩ := exists_columnIndex?_iff.2 hfield
  obtain ⟨keys, hgroups, hshown, hcovered, hascending⟩ := groups_of_unmixed hc hcells
  have hvalue : ∀ source, Grouping.source? t a = some source → ∀ g ∈ Grouping.ofRows [c] t.rows,
      Grouping.Accepted.value ⟨a, source⟩ g.rows = .ok (.int (t.summaryOf a g.rows)) := by
    intro source hsource g hg
    rw [hgroups] at hg
    obtain ⟨key, hkey, rfl⟩ := List.mem_map.1 hg
    rcases hop with hcount | ⟨hsum, hsummable⟩
    · exact Grouping.value_of_count hcount hsource
    · obtain ⟨hpresent, first, rest, hrows, hfirst⟩ := hshown key hkey
      have hin : ∀ row ∈ t.groupOf field key, row ∈ t.rows := fun row hrow =>
        (List.mem_filter.1 hrow).1
      have hcolumn : key ∈ t.columnOf field := by
        rw [hfirst]
        exact cellOf_mem (hin first (by simp [hrows])) field
      apply Grouping.value_of_sum hsum hsource
      · exact fun row hrow => hsummable.cells _ (cellOf_mem (hin row hrow) _)
      · exact hsummable.sums key hcolumn hpresent
  obtain ⟨notes, hgrouped⟩ := groupBy_single hc ha hlabel hvalue
  rw [hgroups, List.map_map] at hgrouped
  exact ⟨keys, notes, hgrouped, hshown, hcovered, hascending⟩

theorem isSummary_of_orderBy {keys : List Value} (hlabel : a.label ≠ field)
    (hshown : ∀ key ∈ keys, key.isNull = false ∧
      ∃ first rest, t.groupOf field key = first :: rest ∧ key = t.cellOf first field)
    (hcovered : ∀ v ∈ t.columnOf field, v.isNull = false → ∃ key ∈ keys, Cell.order key v = .eq)
    (hascending : keys.Pairwise fun key other => Cell.order key other = .lt) :
    IsSummary t field a
      (orderBy ⟨[field, a.label],
        keys.map fun key => [key, .int (t.summaryOf a (t.groupOf field key))]⟩
        a.label .descending).1 := by
  have hindex : (⟨[field, a.label], keys.map fun key =>
      [key, .int (t.summaryOf a (t.groupOf field key))]⟩ : Table).columnIndex? a.label = some 1 := by
    simp [columnIndex?, List.idxOf?_cons, hlabel.symm]
  have hless : ∀ key ∈ keys, ∀ other ∈ keys,
      rowLess 1 .descending [key, .int (t.summaryOf a (t.groupOf field key))]
          [other, .int (t.summaryOf a (t.groupOf field other))] = true ↔
        OrderDual.toDual (t.summaryOf a (t.groupOf field key)) <
          OrderDual.toDual (t.summaryOf a (t.groupOf field other)) := by
    intro key _ other _
    rw [OrderDual.toDual_lt_toDual, ← compare_lt_iff_lt, rowLess, beq_iff_eq]
    rfl
  -- The groups ascend before the sort, and groups with equal numbers stay as they are.
  have hsorted := stableSort_ahead hless hascending
  generalize hresult : stableSort (fun key other =>
    rowLess 1 .descending [key, .int (t.summaryOf a (t.groupOf field key))]
      [other, .int (t.summaryOf a (t.groupOf field other))]) keys = sorted at hsorted
  have hperm : sorted.Perm keys := hresult ▸ stableSort_perm _ _
  have hapart : keys.Pairwise fun key other => Cell.order key other ≠ .eq :=
    hascending.imp fun hlt heq => by rw [hlt] at heq; cases heq
  simp only [orderBy, hindex]
  refine ⟨rfl, sorted, ?_, ?_, ?_, ?_, ?_⟩
  · rw [← hresult, map_stableSort]
  · exact fun key hkey => hshown key (hperm.mem_iff.1 hkey)
  · intro v hv hpresent
    obtain ⟨key, hkey, heq⟩ := hcovered v hv hpresent
    exact ⟨key, hperm.mem_iff.2 hkey, heq⟩
  · refine hapart.perm hperm.symm ?_
    intro key other hne heq
    exact hne (Cell.order_eq_comm.1 heq)
  · apply hsorted.imp
    rintro key other (hlt | ⟨heq, hafter⟩)
    · exact .inl hlt
    · exact .inr ⟨heq.symm, hafter⟩

end Table

end
end TablePlanner
