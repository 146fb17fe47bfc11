import TablePlanner.Proofs.Execution.Provenance
import TablePlanner.Proofs.Execution.Sorting

/-! A selection does the same to every row, so it may be put behind filters and orderings by columns
that it leaves and behind cuts. A filter commutes with an ordering because what is left of an
arrangement is the arrangement of what is left. -/
namespace TablePlanner
open Json

/-- In either order both operations run, the tables in the end are the same, and so are the notes
that each of the two takes. -/
def Operation.Commute (t : Table) (op other : Operation) : Prop :=
  ∃ u v w notes notes', op.apply t = .ok (u, notes) ∧ other.apply u = .ok (w, notes') ∧
    other.apply t = .ok (v, notes') ∧ op.apply v = .ok (w, notes)

/-- A filter or an ordering by one of the columns, or a cut to the first rows. -/
def Operation.StaysWithin (columns : List String) : Operation → Prop
  | filter field _ | orderBy field _ => field ∈ columns
  | limit _ => True
  | select _ | groupBy .. => False

/-- The table that a run gives, or its failure. -/
def resultOf (run : Except ExecutionError (Table × List Diagnostic)) :
    Except ExecutionError Table :=
  run.map (·.1)

section
variable {t : Table} {op other : Operation} {id : String}

theorem resultOf_runFrom_cons {u : Table} {notes : List Note} (h : op.apply t = .ok (u, notes))
    (index : Nat) (ops : List Operation) :
    resultOf (runFrom id index t (op :: ops)) = resultOf (runFrom id (index + 1) u ops) := by
  simp only [runFrom, h]
  cases runFrom id (index + 1) u ops <;> rfl

theorem Operation.Commute.resultOf_eq (h : Commute t op other) (index : Nat)
    (after : List Operation) :
    resultOf (runFrom id index t (op :: other :: after)) =
      resultOf (runFrom id index t (other :: op :: after)) := by
  obtain ⟨u, v, w, notes, notes', hop, hother, hother', hop'⟩ := h
  rw [resultOf_runFrom_cons hop, resultOf_runFrom_cons hother, resultOf_runFrom_cons hother',
    resultOf_runFrom_cons hop']

theorem resultOf_congr_after {before more other : List Operation} {index : Nat}
    (h : ∀ u trace, runFrom id index t before = .ok (u, trace) →
      resultOf (runFrom id (index + before.length) u more) =
        resultOf (runFrom id (index + before.length) u other)) :
    resultOf (runFrom id index t (before ++ more)) =
      resultOf (runFrom id index t (before ++ other)) := by
  induction before generalizing index t with
  | nil => exact h t [] rfl
  | cons first before ih =>
    cases hfirst : first.apply t with
    | error cell => simp only [List.cons_append, runFrom, hfirst]
    | ok applied =>
      obtain ⟨u, notes⟩ := applied
      rw [List.cons_append, List.cons_append, resultOf_runFrom_cons hfirst,
        resultOf_runFrom_cons hfirst]
      refine ih fun v trace hbefore => ?_
      rw [Nat.add_assoc, Nat.add_comm 1]
      refine h v (notes.map (⟨id, index, first.kind, ·⟩) ++ trace) ?_
      simp only [runFrom, hfirst, hbefore]
      rfl

end

namespace Table
variable {t : Table} {field : String}

theorem filter_of_mem (h : field ∈ t.columns) (value : Value) :
    t.filter field value =
      (⟨t.columns, t.rows.filter fun row => Cell.equal (t.cellOf row field) value⟩, []) := by
  obtain ⟨i, hi⟩ := exists_columnIndex?_iff.2 h
  simp only [Table.filter, hi, cellOf_of_columnIndex? hi]

theorem filter_of_not_mem (h : field ∉ t.columns) (value : Value) :
    t.filter field value = (t, [.missingField field]) := by
  simp only [Table.filter, columnIndex?_eq_none_iff.2 h]

def cellIs (t : Table) (field : String) (value : Value) (i : Fin t.rows.length) : Bool :=
  Cell.equal (t.cellAt field i) value

theorem filter_picked (h : field ∈ t.columns) (value : Value) (picked : List (Fin t.rows.length)) :
    Table.filter ⟨t.columns, picked.map t.rows.get⟩ field value =
      (⟨t.columns, (picked.filter (t.cellIs field value)).map t.rows.get⟩, []) := by
  have hcolumn : field ∈ (⟨t.columns, picked.map t.rows.get⟩ : Table).columns := h
  rw [filter_of_mem hcolumn, List.filter_map]
  rfl

theorem orderBy_of_mem (h : field ∈ t.columns) (direction : Direction) :
    t.orderBy field direction =
      (⟨t.columns, stableSort (fun a b => Cell.sortOrder (direction == .descending)
        (t.cellOf a field) (t.cellOf b field) == .lt) t.rows⟩, []) := by
  obtain ⟨i, hi⟩ := exists_columnIndex?_iff.2 h
  simp only [Table.orderBy, hi, cellOf_of_columnIndex? hi]
  rfl

theorem orderBy_of_not_mem (h : field ∉ t.columns) (direction : Direction) :
    t.orderBy field direction = (t, [.missingField field]) := by
  simp only [Table.orderBy, columnIndex?_eq_none_iff.2 h]

/-- What a selection leaves of the columns of a table, what it makes of each row, and its notes. -/
structure SelectsAs (columns fields names : List String) (pick : Row → Row) (notes : List Note) :
    Prop where
  select_eq : ∀ rows, Table.select ⟨columns, rows⟩ fields = (⟨names, rows.map pick⟩, notes)
  mem : ∀ name ∈ names, name ∈ columns
  cell_eq : ∀ name ∈ names, ∀ row,
    cell (pick row) (names.idxOf name) = cell row (columns.idxOf name)

theorem selectsAs_all {columns fields : List String} {notes : List Note}
    (h : ∀ rows, Table.select ⟨columns, rows⟩ fields = (⟨columns, rows⟩, notes)) :
    SelectsAs columns fields columns id notes where
  select_eq rows := by rw [h rows, List.map_id]
  mem _ hname := hname
  cell_eq _ _ _ := rfl

theorem exists_selectsAs (columns fields : List String) :
    ∃ names pick notes, SelectsAs columns fields names pick notes := by
  have hsame : ∀ rows, knownColumns ⟨columns, rows⟩ fields = knownColumns ⟨columns, []⟩ fields :=
    fun _ => rfl
  by_cases hempty : fields.isEmpty = true
  · exact ⟨columns, id, [], selectsAs_all fun rows => by rw [Table.select, if_pos hempty]⟩
  by_cases hnone : (knownColumns ⟨columns, []⟩ fields).isEmpty = true
  · refine ⟨columns, id, [.emptySelection fields], selectsAs_all fun rows => ?_⟩
    simp only [Table.select, if_neg hempty, hsame rows, if_pos hnone]
  · refine ⟨pickColumns ⟨columns, []⟩ (knownColumns ⟨columns, []⟩ fields),
      pickCells (knownColumns ⟨columns, []⟩ fields),
      if (unknownNames ⟨columns, []⟩ fields).isEmpty then []
        else [.unknownFields (unknownNames ⟨columns, []⟩ fields)], fun rows => ?_, ?_, ?_⟩
    · simp only [Table.select, if_neg hempty, hsame rows, if_neg hnone]
      rfl
    · intro name hname
      rw [pickColumns_knownColumns] at hname
      exact (mem_present.1 hname).2
    · exact fun name hname => cellOf_pickCells hname

theorem SelectsAs.columns_select {fields names : List String} {pick : Row → Row} {notes : List Note}
    (h : SelectsAs t.columns fields names pick notes) : (t.select fields).1.columns = names :=
  congrArg (·.1.columns) (h.select_eq t.rows)

theorem SelectsAs.commute {fields names : List String} {pick : Row → Row} {notes notes' : List Note}
    (hselects : SelectsAs t.columns fields names pick notes) {other : Operation} {rows : List Row}
    (h : other.apply t = .ok (⟨t.columns, rows⟩, notes'))
    (hpicked : other.apply ⟨names, t.rows.map pick⟩ = .ok (⟨names, rows.map pick⟩, notes')) :
    Operation.Commute t (.select fields) other :=
  ⟨_, _, _, notes, notes', congrArg Except.ok (hselects.select_eq t.rows), hpicked, h,
    congrArg Except.ok (hselects.select_eq rows)⟩

section
variable {fields : List String} (h : field ∈ (t.select fields).1.columns)
include h

theorem commute_select_filter (value : Value) :
    Operation.Commute t (.select fields) (.filter field value) := by
  obtain ⟨names, pick, notes, hselects⟩ := exists_selectsAs t.columns fields
  have hname : field ∈ names := hselects.columns_select ▸ h
  apply hselects.commute
  · exact congrArg Except.ok (filter_of_mem (hselects.mem field hname) value)
  · rw [Operation.apply, filter_of_mem hname, List.filter_map]
    simp only [Function.comp_def, cellOf, hselects.cell_eq field hname]

theorem commute_select_orderBy (direction : Direction) :
    Operation.Commute t (.select fields) (.orderBy field direction) := by
  obtain ⟨names, pick, notes, hselects⟩ := exists_selectsAs t.columns fields
  have hname : field ∈ names := hselects.columns_select ▸ h
  apply hselects.commute
  · exact congrArg Except.ok (orderBy_of_mem (hselects.mem field hname) direction)
  · rw [Operation.apply, orderBy_of_mem hname, ← map_stableSort]
    simp only [cellOf, hselects.cell_eq field hname]

end

theorem commute_select_limit (fields : List String) (count : Int) :
    Operation.Commute t (.select fields) (.limit count) := by
  obtain ⟨names, pick, notes, hselects⟩ := exists_selectsAs t.columns fields
  by_cases hcount : count ≤ 0
  · have hlimit : ∀ u : Table, u.limit count = (u, [.nonPositiveLimit count]) := fun _ =>
      if_pos hcount
    exact hselects.commute (congrArg Except.ok (hlimit t)) (congrArg Except.ok (hlimit _))
  · have hlimit : ∀ u : Table, u.limit count = (u.head count.toNat, []) := fun _ =>
      if_neg hcount
    apply hselects.commute
    · exact congrArg Except.ok (hlimit t)
    · rw [List.map_take]
      exact congrArg Except.ok (hlimit _)

section
variable {id : String} {fields : List String} {op : Operation}

theorem commute_select (h : op.StaysWithin (t.select fields).1.columns) :
    Operation.Commute t (.select fields) op := by
  cases op with
  | filter field value => exact commute_select_filter h value
  | orderBy field direction => exact commute_select_orderBy h direction
  | limit count => exact commute_select_limit fields count
  | select _ => exact h.elim
  | groupBy _ _ => exact h.elim

theorem columns_of_staysWithin {columns : List String} {u : Table} {notes : List Note}
    (hop : op.StaysWithin columns) (h : op.apply t = .ok (u, notes)) : u.columns = t.columns := by
  rw [(Operation.eq_on_of_apply h).2]
  cases op with
  | filter field value => rfl
  | orderBy field direction => rfl
  | limit count => rfl
  | select _ => exact hop.elim
  | groupBy _ _ => exact hop.elim

theorem columns_select_congr {u : Table} (h : u.columns = t.columns) (fields : List String) :
    (u.select fields).1.columns = (t.select fields).1.columns := by
  obtain ⟨names, pick, notes, hselects⟩ := exists_selectsAs t.columns fields
  have hother : SelectsAs u.columns fields names pick notes := h ▸ hselects
  rw [hother.columns_select, hselects.columns_select]

theorem resultOf_select_cons {between : List Operation}
    (h : ∀ op ∈ between, op.StaysWithin (t.select fields).1.columns) (index : Nat)
    (after : List Operation) :
    resultOf (runFrom id index t (.select fields :: (between ++ after))) =
      resultOf (runFrom id index t (between ++ .select fields :: after)) := by
  induction between generalizing index t with
  | nil => rfl
  | cons op between ih =>
    have hop := h op List.mem_cons_self
    have hcommute := commute_select hop
    have ⟨_, u, _, _, notes, _, _, happly, _⟩ := hcommute
    rw [List.cons_append, hcommute.resultOf_eq, List.cons_append, resultOf_runFrom_cons happly,
      resultOf_runFrom_cons happly]
    refine ih (fun other hother => ?_) (index + 1)
    rw [columns_select_congr (columns_of_staysWithin hop happly)]
    exact h other (List.mem_cons_of_mem op hother)

/-- A recipe gives the same table, or fails alike, if its selection is put behind the filters,
orderings and cuts that follow it and that need no column but those it leaves. -/
theorem resultOf_select_last {before between : List Operation} {index : Nat}
    (h : ∀ u trace, runFrom id index t before = .ok (u, trace) →
      ∀ op ∈ between, op.StaysWithin (u.select fields).1.columns) (after : List Operation) :
    resultOf (runFrom id index t (before ++ .select fields :: (between ++ after))) =
      resultOf (runFrom id index t (before ++ (between ++ .select fields :: after))) :=
  resultOf_congr_after fun u trace hbefore => resultOf_select_cons (h u trace hbefore) _ after

end

theorem commute_filter_orderBy {column : String}
    (hcells : column ∈ t.columns → Cell.Unmixed (t.columnOf column)) (value : Value)
    (direction : Direction) :
    Operation.Commute t (.filter field value) (.orderBy column direction) := by
  by_cases hcolumn : column ∈ t.columns
  · obtain ⟨order, horder, hordered⟩ :=
      t.arranged_finRange.orderBy hcolumn (hcells hcolumn) direction
    rw [List.map_get_finRange] at hordered
    by_cases hfield : field ∈ t.columns
    · -- What is kept of the sorted rows and the sort of the kept rows are one arrangement.
      obtain ⟨sorted, hperm, hsorted, hstep⟩ := exists_sorted hcolumn (hcells hcolumn) direction
        (t.arranged_finRange.ahead.filter (t.cellIs field value))
      have hsame : order.filter (t.cellIs field value) = sorted :=
        eq_of_pairwise_ahead ((horder.perm.filter _).trans hperm.symm) hsorted
          (horder.ahead.filter _)
      have hkept := filter_picked hfield value (List.finRange t.rows.length)
      rw [List.map_get_finRange] at hkept
      exact ⟨_, _, _, [], [], congrArg Except.ok hkept, congrArg Except.ok hstep,
        congrArg Except.ok hordered, congrArg Except.ok (hsame ▸ filter_picked hfield value order)⟩
    · have hmissing : ∀ u : Table, u.columns = t.columns →
          u.filter field value = (u, [.missingField field]) := fun u hu =>
        filter_of_not_mem (hu ▸ hfield) value
      exact ⟨_, _, _, _, [], congrArg Except.ok (hmissing t rfl), congrArg Except.ok hordered,
        congrArg Except.ok hordered, congrArg Except.ok (hmissing _ rfl)⟩
  · have hmissing : ∀ u : Table, u.columns = t.columns →
        u.orderBy column direction = (u, [.missingField column]) := fun u hu =>
      orderBy_of_not_mem (hu ▸ hcolumn) direction
    have hfilter : (t.filter field value).1.columns = t.columns := by
      by_cases hfield : field ∈ t.columns
      · rw [filter_of_mem hfield]
      · rw [filter_of_not_mem hfield]
    exact ⟨_, _, _, _, _, rfl, congrArg Except.ok (hmissing _ hfilter),
      congrArg Except.ok (hmissing t rfl), rfl⟩

/-- The pairs of operations that commute. An ordering changes places with a filter only if its
column is sorted by places; with a selection it always does, since it compares the same cells. -/
theorem operations_commute (t : Table) :
    (∀ fields field, field ∈ (t.select fields).1.columns →
      (∀ value, Operation.Commute t (.select fields) (.filter field value)) ∧
      ∀ direction, Operation.Commute t (.select fields) (.orderBy field direction)) ∧
    (∀ fields count, Operation.Commute t (.select fields) (.limit count)) ∧
    ∀ field value column direction,
      (column ∈ t.columns → Cell.Unmixed (t.columnOf column)) →
      Operation.Commute t (.filter field value) (.orderBy column direction) :=
  ⟨fun _ _ h => ⟨commute_select_filter h, commute_select_orderBy h⟩, commute_select_limit,
    fun _ value _ direction hcells => commute_filter_orderBy hcells value direction⟩

def marks : Table where
  columns := ["Mark", "Cell"]
  rows :=
    [[.bool true, .int 3], [.bool false, .int 1], [.bool true, .null], [.bool true, .string "a"]]

theorem marks_operations_commute :
    (∀ value, Operation.Commute marks (.select ["Cell", "Note", "Mark", "Cell"])
      (.filter "Mark" value)) ∧
    Operation.Commute marks (.select ["Note"]) (.orderBy "Cell" .descending) ∧
    Operation.Commute marks (.filter "Mark" (.bool true)) (.orderBy "Cell" .descending) ∧
    Operation.Commute marks (.filter "Mark" .null) (.orderBy "Note" .ascending) := by
  have hcells : Cell.Unmixed (marks.columnOf "Cell") := by
    intro x n hx
    simp [columnOf, cellOf, cell, marks, Value.int] at hx
  obtain ⟨hselect, -, hfilter⟩ := operations_commute marks
  refine ⟨(hselect _ _ (by decide)).1, (hselect _ _ (by decide)).2 _,
    hfilter _ _ _ _ fun _ => hcells, hfilter _ _ _ _ fun hnote => ?_⟩
  exact absurd hnote (by decide)

end Table
end TablePlanner
