import TablePlanner.Proofs.Execution.Groups
import TablePlanner.Proofs.Execution.Notes

namespace TablePlanner
open Json

theorem mapM_of_forall_ok {f : α → Except ε β} {g : α → β} {xs : List α}
    (h : ∀ x ∈ xs, f x = .ok (g x)) : xs.mapM f = .ok (xs.map g) := by
  induction xs with
  | nil => rfl
  | cons x xs ih =>
    rw [List.forall_mem_cons] at h
    rw [List.mapM_cons, h.1, ih h.2]
    rfl

section
variable {t : Table} {field : String} {c : Nat} {a : Aggregation}

namespace Grouping

theorem keyOrder_single (a b : Value) : keyOrder [a] [b] = Cell.order a b := by
  simp [keyOrder]

theorem accept_single (ha : a.HasSource t) (hlabel : a.label ≠ field) :
    ∃ source, source? t a = some source ∧ accept t [field] [a] = ([⟨a, source⟩], []) := by
  cases hsource : source? t a with
  | none => exact absurd ha (source?_eq_none_iff.1 hsource)
  | some source =>
    refine ⟨source, rfl, ?_⟩
    simp [accept, hsource, hlabel]

end Grouping

namespace Table

theorem knownColumns_single (hc : t.columnIndex? field = some c) : t.knownColumns [field] = [c] := by
  simp [knownColumns, hc]

theorem pickCells_single (hc : t.columnIndex? field = some c) (row : Row) :
    pickCells [c] row = [t.cellOf row field] := by
  rw [cellOf_of_columnIndex? hc]
  rfl

theorem hasNullKey_single (hc : t.columnIndex? field = some c) (row : Row) :
    Grouping.hasNullKey [c] row = (t.cellOf row field).isNull := by
  simp [Grouping.hasNullKey, pickCells_single hc]

theorem groupBy_single {value : Grouping.Group → Value}
    (hc : t.columnIndex? field = some c) (ha : a.HasSource t) (hlabel : a.label ≠ field)
    (hvalue : ∀ source, Grouping.source? t a = some source → ∀ g ∈ Grouping.ofRows [c] t.rows,
      Grouping.Accepted.value ⟨a, source⟩ g.rows = .ok (value g)) :
    ∃ notes, t.groupBy [field] [a] = .ok (⟨[field, a.label],
      (Grouping.ofRows [c] t.rows).map fun g => g.key ++ [value g]⟩, notes) := by
  obtain ⟨source, hsource, haccept⟩ := Grouping.accept_single ha hlabel
  have hnames : t.pickColumns [c] = [field] := by
    simp [pickColumns, ← getD_of_columnIndex? hc]
  have hrows : (Grouping.ofRows [c] t.rows).mapM (Grouping.Group.row [⟨a, source⟩]) =
      .ok ((Grouping.ofRows [c] t.rows).map fun g => g.key ++ [value g]) := by
    apply mapM_of_forall_ok
    intro g hg
    simp only [Grouping.Group.row, List.mapM_cons, List.mapM_nil, hvalue source hsource g hg]
    rfl
  unfold groupBy
  simp only [knownColumns_single hc, hnames, haccept, hrows]
  exact ⟨_, rfl⟩

section
variable {g : Grouping.Group} {key : Value}

theorem exists_first (hc : t.columnIndex? field = some c) (hg : g ∈ Grouping.ofRows [c] t.rows) :
    ∃ first rest, g.rows = first :: rest ∧ g.key = [t.cellOf first field] ∧ first ∈ t.rows ∧
      (t.cellOf first field).isNull = false := by
  obtain ⟨⟨first, rest, hrows, hkey⟩, hmem⟩ := Grouping.drawnFrom_ofRows hg
  have hfirst : first ∈ g.rows := by simp [hrows]
  have hkept := (Grouping.perm_ofRows [c] t.rows).subset (List.mem_flatMap.2 ⟨g, hg, hfirst⟩)
  have hpresent := (List.mem_filter.1 hkept).2
  rw [hasNullKey_single hc, Bool.not_eq_true'] at hpresent
  exact ⟨first, rest, hrows, hkey.trans (pickCells_single hc first), hmem first hfirst, hpresent⟩

theorem order_of_mem_group (hc : t.columnIndex? field = some c)
    (hg : g ∈ Grouping.ofRows [c] t.rows) (hkey : g.key = [key]) :
    ∀ row ∈ g.rows, Cell.order key (t.cellOf row field) = .eq := by
  intro row hrow
  have heq := (Grouping.sublist_of_mem_ofRows hg).2 row hrow
  rwa [hkey, pickCells_single hc, Grouping.keyOrder_single, Cell.order_eq_comm] at heq

end

/-- The rows whose cell in a column compares equal to a key. -/
def groupOf (t : Table) (field : String) (key : Value) : List Row :=
  t.rows.filter fun row => Cell.order key (t.cellOf row field) == .eq

theorem groupOf_eq_filter_present (hc : t.columnIndex? field = some c) (hkey : key.isNull = false) :
    t.groupOf field key = (t.rows.filter (!Grouping.hasNullKey [c] ·)).filter fun row =>
      Cell.order key (t.cellOf row field) == .eq := by
  rw [List.filter_filter, groupOf]
  apply List.filter_congr
  intro row _
  rw [hasNullKey_single hc]
  cases heq : Cell.order key (t.cellOf row field) with
  | eq => simp [← Cell.isNull_eq_of_order_eq heq, hkey]
  | lt => rfl
  | gt => rfl

end Table
end
end TablePlanner
