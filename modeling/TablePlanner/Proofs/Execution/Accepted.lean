import Mathlib.Data.List.Forall2
import Mathlib.Data.List.GetD
import TablePlanner.Proofs.Execution.Notes

namespace TablePlanner
open Json

theorem mapM_congr_of_mem {f g : α → Except ε β} {xs : List α} (h : ∀ x ∈ xs, f x = g x) :
    xs.mapM f = xs.mapM g := by
  induction xs with
  | nil => rfl
  | cons x xs ih =>
    rw [List.forall_mem_cons] at h
    rw [List.mapM_cons, List.mapM_cons, h.1, ih h.2]

namespace Aggregation

def valueOn (a : Aggregation) (t : Table) (rows : List Row) : Except NonNumeric Value :=
  if a.op = .count then .ok (.nat rows.length)
  else
    match a.op.ofCells (rows.map (t.cellOf · a.field)) with
    | .ok v => .ok v
    | .error v => .error ⟨a.field, a.op, v⟩

end Aggregation

namespace Grouping

def acceptBehind (t : Table) (keys : List String) (before : List Aggregation) :
    List Aggregation → List Aggregation
  | [] => before
  | a :: as =>
    if a.HasSource t ∧ a.label ∉ t.present keys ∧ ∀ b ∈ before, b.label ≠ a.label then
      acceptBehind t keys (before ++ [a]) as
    else acceptBehind t keys before as

/-- The accepted aggregations: each has a source, and its label is that of no key and of no
aggregation accepted before it. -/
def acceptedOn (t : Table) (keys : List String) (aggregations : List Aggregation) :
    List Aggregation :=
  acceptBehind t keys [] aggregations

section
variable {t : Table} {keys columns : List String} {before : List Aggregation}

theorem acceptBehind_eq
    (hcolumns : ∀ label, label ∈ columns ↔ label ∈ t.present keys ∨ ∃ b ∈ before, b.label = label)
    (rest : List Aggregation) :
    acceptBehind t keys before rest = before ++ (accept t columns rest).1.map (·.aggregation) := by
  induction rest generalizing columns before with
  | nil => simp [acceptBehind, accept]
  | cons a rest ih =>
    unfold acceptBehind accept
    cases hsource : source? t a with
    | none =>
      have hno : ¬ a.HasSource t := source?_eq_none_iff.1 hsource
      rw [if_neg fun h => hno h.1]
      exact ih hcolumns
    | some source =>
      have hhas : a.HasSource t := by
        by_contra hno
        rw [source?_eq_none_iff.2 hno] at hsource
        cases hsource
      have hfree : (a.label ∉ t.present keys ∧ ∀ b ∈ before, b.label ≠ a.label) ↔
          a.label ∉ columns := by
        rw [hcolumns, not_or]
        simp
      by_cases hlabel : a.label ∈ columns
      · rw [if_neg fun h => hfree.1 h.2 hlabel]
        simp only [if_pos hlabel]
        exact ih hcolumns
      · rw [if_pos ⟨hhas, hfree.2 hlabel⟩]
        simp only [if_neg hlabel]
        have hcolumns' : ∀ label, label ∈ columns ++ [a.label] ↔
            label ∈ t.present keys ∨ ∃ b ∈ before ++ [a], b.label = label := by
          intro label
          rw [List.mem_append, List.mem_singleton, hcolumns, or_assoc]
          simp [or_and_right, exists_or, eq_comm]
        rw [ih hcolumns']
        simp

theorem acceptedOn_eq (t : Table) (keys : List String) (aggregations : List Aggregation) :
    acceptedOn t keys aggregations =
      (accept t (t.present keys) aggregations).1.map (·.aggregation) :=
  acceptBehind_eq (by simp) aggregations

theorem acceptBehind_of_rows (rows : List Row) (before rest : List Aggregation) :
    acceptBehind ⟨t.columns, rows⟩ keys before rest = acceptBehind t keys before rest := by
  induction rest generalizing before with
  | nil => rfl
  | cons a rest ih =>
    unfold acceptBehind
    rw [ih, ih]
    rfl

theorem source?_of_mem_accept {aggregations : List Aggregation} {a : Accepted}
    (ha : a ∈ (accept t columns aggregations).1) : source? t a.aggregation = some a.source := by
  induction aggregations generalizing columns with
  | nil => simp [accept] at ha
  | cons b aggregations ih =>
    unfold accept at ha
    split at ha
    · exact ih ha
    · next source hsource =>
      split at ha
      · exact ih ha
      · rcases List.mem_cons.1 ha with rfl | ha
        · exact hsource
        · exact ih ha

theorem Accepted.value_eq_valueOn {a : Accepted} (h : source? t a.aggregation = some a.source)
    (rows : List Row) : a.value rows = a.aggregation.valueOn t rows := by
  unfold source? at h
  unfold value Aggregation.valueOn
  split at h
  · next hcount =>
    rw [if_pos hcount, ← Option.some.inj h]
  · next hcount =>
    obtain ⟨i, hi, hsource⟩ := Option.map_eq_some_iff.1 h
    have hcells : rows.map (t.cellOf · a.aggregation.field) = rows.map (Table.cell · i) :=
      List.map_congr_left fun row _ => Table.cellOf_of_columnIndex? hi row
    rw [if_neg hcount, hcells]
    exact hsource ▸ rfl

def rowOn (t : Table) (keys : List String) (aggregations : List Aggregation) (g : Group) :
    Except NonNumeric Row := do
  return g.key ++ (← (acceptedOn t keys aggregations).mapM (·.valueOn t g.rows))

theorem row_eq_rowOn (t : Table) (keys : List String) (aggregations : List Aggregation)
    (g : Group) :
    g.row (accept t (t.present keys) aggregations).1 = rowOn t keys aggregations g := by
  have hvalues : (accept t (t.present keys) aggregations).1.mapM (·.value g.rows) =
      (acceptedOn t keys aggregations).mapM (·.valueOn t g.rows) := by
    rw [acceptedOn_eq, List.mapM_map]
    apply mapM_congr_of_mem
    intro a ha
    exact Accepted.value_eq_valueOn (source?_of_mem_accept ha) g.rows
  rw [Group.row, rowOn, hvalues]

end
end Grouping

namespace Table
open Grouping

theorem present_ne_nil_iff {t : Table} {names : List String} :
    t.present names ≠ [] ↔ ∃ name ∈ names, name ∈ t.columns := by
  rw [Ne, present_eq_nil_iff]
  simp

theorem groupBy_of_absent {t : Table} {keys : List String} (h : t.present keys = [])
    (aggregations : List Aggregation) :
    t.groupBy keys aggregations = .ok (t, [.noGroupKeys keys]) := by
  unfold groupBy
  rw [knownColumns_eq_nil_iff.2 h]
  rfl

theorem groupBy_of_present {t : Table} {keys : List String} (h : t.present keys ≠ [])
    (aggregations : List Aggregation) :
    t.groupBy keys aggregations =
      match (Grouping.ofRows (t.knownColumns keys) t.rows).mapM (rowOn t keys aggregations) with
      | .ok rows =>
        .ok (⟨t.present keys ++ (acceptedOn t keys aggregations).map (·.label), rows⟩,
          (Operation.groupBy keys aggregations).notesOn t)
      | .error cell => .error cell := by
  have hknown : (t.knownColumns keys).isEmpty = false := by
    simpa using mt knownColumns_eq_nil_iff.1 h
  have hrows : Group.row (accept t (t.present keys) aggregations).1 = rowOn t keys aggregations :=
    funext (row_eq_rowOn t keys aggregations)
  have hlabels : (accept t (t.present keys) aggregations).1.map (·.aggregation.label) =
      (acceptedOn t keys aggregations).map (·.label) := by
    rw [acceptedOn_eq, List.map_map]
    rfl
  cases hgroups :
      (Grouping.ofRows (t.knownColumns keys) t.rows).mapM (rowOn t keys aggregations) with
  | error cell =>
    unfold groupBy
    simp only [hknown, pickColumns_knownColumns, hrows, hgroups]
    rfl
  | ok rows =>
    have hok : ∃ notes, t.groupBy keys aggregations =
        .ok (⟨t.present keys ++ (acceptedOn t keys aggregations).map (·.label), rows⟩, notes) := by
      unfold groupBy
      simp only [hknown, pickColumns_knownColumns, hrows, hgroups, hlabels]
      exact ⟨_, rfl⟩
    obtain ⟨notes, hok⟩ := hok
    rw [hok, (groupBy_eq hok).1]

theorem groupBy_columns {t u : Table} {keys : List String} {aggregations : List Aggregation}
    {notes : List Note} (hpresent : t.present keys ≠ [])
    (h : t.groupBy keys aggregations = .ok (u, notes)) :
    u.columns = t.present keys ++ (acceptedOn t keys aggregations).map (·.label) := by
  rw [groupBy_of_present hpresent] at h
  split at h
  · cases h
    rfl
  · cases h

theorem nodup_present (t : Table) (keys : List String) : (t.present keys).Nodup :=
  nodup_addColumns .nil _

theorem nodup_shownColumns (t : Table) (keys : List String) (aggregations : List Aggregation) :
    (t.present keys ++ (acceptedOn t keys aggregations).map (·.label)).Nodup := by
  rw [acceptedOn_eq, List.map_map]
  exact nodup_accept (t.nodup_present keys) aggregations

section
variable {u : Table} {names labels : List String} {accepted : List Aggregation}
  {f : String → Value} {values : List Value}

theorem cellOf_shown_key {key : String} (hcolumns : u.columns = names ++ labels)
    (hkey : key ∈ names) : u.cellOf (names.map f ++ values) key = f key := by
  have hlt : names.idxOf key < (names.map f).length := by
    rw [List.length_map]
    exact List.idxOf_lt_length_of_mem hkey
  rw [cellOf, hcolumns, List.idxOf_append_of_mem hkey, cell, List.getD_append _ _ _ _ hlt]
  simp [List.idxOf_lt_length_of_mem hkey]

theorem cellOf_shown_label {R : Aggregation → Value → Prop} {a : Aggregation}
    (hcolumns : u.columns = names ++ accepted.map (·.label))
    (hnodup : (names ++ accepted.map (·.label)).Nodup)
    (hvalues : List.Forall₂ R accepted values) (ha : a ∈ accepted) :
    R a (u.cellOf (names.map f ++ values) a.label) := by
  obtain ⟨-, hlabels, hapart⟩ := List.nodup_append.1 hnodup
  have hfree : a.label ∉ names := fun hmem => hapart _ hmem _ (List.mem_map_of_mem ha) rfl
  have hcell : u.cellOf (names.map f ++ values) a.label =
      values.getD ((accepted.map (·.label)).idxOf a.label) .null := by
    rw [cellOf, hcolumns, List.idxOf_append_of_notMem hfree, cell,
      List.getD_append_right _ _ _ _ (by simp), List.length_map, Nat.add_sub_cancel_left]
  rw [hcell]
  clear hcolumns hnodup hapart hfree hcell
  -- Distinct labels are found at the places of their aggregations.
  induction hvalues with
  | nil => cases ha
  | @cons b v accepted values hv _ ih =>
    rw [List.map_cons, List.nodup_cons] at hlabels
    rw [List.map_cons]
    rcases List.mem_cons.1 ha with rfl | ha
    · rwa [List.idxOf_cons_self]
    · have hne : b.label ≠ a.label := fun heq => hlabels.1 (heq ▸ List.mem_map_of_mem ha)
      rw [List.idxOf_cons_ne _ hne]
      exact ih ha hlabels.2

end

end Table
end TablePlanner
