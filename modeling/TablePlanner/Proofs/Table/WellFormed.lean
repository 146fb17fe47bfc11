import Mathlib.Data.List.Induction
import Mathlib.Data.List.Nodup
import TablePlanner.Proofs.Execution.Run
import TablePlanner.Table.Wire

/-! Picked columns are distinct because the indices of a selection are, the labels of a grouping
because each accepted one is new; a group has one cell for each key because it shows those of its
first row. -/
namespace TablePlanner

namespace Table

theorem lt_of_columnIndex? {t : Table} {name : String} {i : Nat}
    (h : t.columnIndex? name = some i) : i < t.columns.length :=
  (List.idxOf?_eq_some_iff.1 h).1

theorem knownColumns_concat (t : Table) (names : List String) (name : String) :
    t.knownColumns (names ++ [name]) =
      match t.columnIndex? name with
      | some i =>
        if i ∈ t.knownColumns names then t.knownColumns names else t.knownColumns names ++ [i]
      | none => t.knownColumns names := by
  unfold knownColumns
  rw [List.foldl_append]
  rfl

theorem nodup_knownColumns (t : Table) (names : List String) : (t.knownColumns names).Nodup := by
  induction names using List.reverseRecOn with
  | nil => exact .nil
  | append_singleton names name ih =>
    rw [knownColumns_concat]
    split
    · next i _ =>
      split
      · exact ih
      · next hnew =>
        simpa only [List.concat_eq_append] using ih.concat hnew
    · exact ih

theorem mem_knownColumns {t : Table} {names : List String} {i : Nat} :
    i ∈ t.knownColumns names ↔ ∃ name ∈ names, t.columnIndex? name = some i := by
  induction names using List.reverseRecOn with
  | nil => simp [knownColumns]
  | append_singleton names name ih =>
    rw [knownColumns_concat]
    cases hname : t.columnIndex? name with
    | none => simp [ih, or_and_right, exists_or, hname]
    | some j =>
      by_cases hj : j ∈ t.knownColumns names
      · simp only [if_pos hj, List.mem_append, List.mem_singleton, or_and_right, exists_or, ← ih,
          exists_eq_left, hname, Option.some.injEq]
        exact ⟨.inl, fun h => h.elim id (· ▸ hj)⟩
      · simp [if_neg hj, or_and_right, exists_or, ih, hname, eq_comm]

theorem lt_of_mem_knownColumns {t : Table} {names : List String} {i : Nat}
    (h : i ∈ t.knownColumns names) : i < t.columns.length := by
  obtain ⟨name, _, hname⟩ := mem_knownColumns.1 h
  exact lt_of_columnIndex? hname

theorem nodup_pickColumns {t : Table} (h : t.columns.Nodup) (names : List String) :
    (t.pickColumns (t.knownColumns names)).Nodup := by
  refine List.Nodup.map_on ?_ (t.nodup_knownColumns names)
  intro i hi j hj hij
  have hi := lt_of_mem_knownColumns hi
  have hj := lt_of_mem_knownColumns hj
  rw [← List.getElem_eq_getD (h := hi) "", ← List.getElem_eq_getD (h := hj) ""] at hij
  exact h.getElem_inj_iff.1 hij

theorem WellFormed.select {t : Table} (h : t.WellFormed) (fields : List String) :
    (t.select fields).1.WellFormed := by
  unfold Table.select
  split
  · exact h
  · dsimp only
    split
    · exact h
    · refine ⟨nodup_pickColumns h.1 fields, ?_⟩
      intro row hrow
      obtain ⟨source, _, rfl⟩ := List.mem_map.1 hrow
      simp [pickCells, pickColumns]

theorem WellFormed.filter {t : Table} (h : t.WellFormed) (field : String) (value : Json.Value) :
    (t.filter field value).1.WellFormed := by
  unfold Table.filter
  split
  · exact h
  · exact ⟨h.1, fun row hrow => h.2 row (List.mem_filter.1 hrow).1⟩

theorem WellFormed.orderBy {t : Table} (h : t.WellFormed) (field : String)
    (direction : Direction) : (t.orderBy field direction).1.WellFormed := by
  unfold Table.orderBy
  split
  · exact h
  · exact ⟨h.1, fun row hrow => h.2 row ((stableSort_perm _ t.rows).mem_iff.1 hrow)⟩

theorem WellFormed.limit {t : Table} (h : t.WellFormed) (count : Int) :
    (t.limit count).1.WellFormed := by
  unfold Table.limit
  split
  · exact h
  · exact h.head count.toNat

end Table

namespace Grouping

theorem mem_addRow {key : Key} {row : Row} {groups : List Group} {g : Group}
    (h : g ∈ addRow key row groups) :
    g ∈ groups ∨ g = ⟨key, [row]⟩ ∨
      ∃ old ∈ groups, keyOrder key old.key = .eq ∧ g = { old with rows := old.rows ++ [row] } := by
  induction groups with
  | nil => exact .inr (.inl (by simpa [addRow] using h))
  | cons first groups ih =>
    unfold addRow at h
    split at h
    · rcases List.mem_cons.1 h with rfl | h
      · exact .inr (.inl rfl)
      · exact .inl h
    · next heq =>
      rcases List.mem_cons.1 h with rfl | h
      · exact .inr (.inr ⟨first, by simp, heq, rfl⟩)
      · exact .inl (List.mem_cons_of_mem _ h)
    · rcases List.mem_cons.1 h with rfl | h
      · exact .inl (by simp)
      · rcases ih h with h | h | ⟨old, hold, heq, h⟩
        · exact .inl (List.mem_cons_of_mem _ h)
        · exact .inr (.inl h)
        · exact .inr (.inr ⟨old, List.mem_cons_of_mem _ hold, heq, h⟩)

def Group.DrawnFrom (keys : List Nat) (rows : List Row) (g : Group) : Prop :=
  (∃ first rest, g.rows = first :: rest ∧ g.key = Table.pickCells keys first) ∧
    ∀ row ∈ g.rows, row ∈ rows

theorem drawnFrom_addRow {keys : List Nat} {rows : List Row} {groups : List Group} {row : Row}
    (hrow : row ∈ rows) (h : ∀ g ∈ groups, g.DrawnFrom keys rows) :
    ∀ g ∈ addRow (Table.pickCells keys row) row groups, g.DrawnFrom keys rows := by
  intro g hg
  rcases mem_addRow hg with hg | rfl | ⟨old, hold, _, rfl⟩
  · exact h g hg
  · exact ⟨⟨row, [], rfl, rfl⟩, by simpa using hrow⟩
  · obtain ⟨⟨first, rest, hrows, hkey⟩, hmem⟩ := h old hold
    refine ⟨⟨first, rest ++ [row], by simp [hrows], hkey⟩, ?_⟩
    intro r hr
    rcases List.mem_append.1 hr with hr | hr
    · exact hmem r hr
    · rw [List.mem_singleton.1 hr]
      exact hrow

theorem drawnFrom_ofRows {keys : List Nat} {rows : List Row} {g : Group}
    (hg : g ∈ ofRows keys rows) : g.DrawnFrom keys rows := by
  have collected : ∀ (rest : List Row) (groups : List Group), (∀ row ∈ rest, row ∈ rows) →
      (∀ g ∈ groups, g.DrawnFrom keys rows) →
      ∀ g ∈ rest.foldl (fun groups row => addRow (Table.pickCells keys row) row groups) groups,
        g.DrawnFrom keys rows := by
    intro rest
    induction rest with
    | nil => exact fun _ _ h => h
    | cons row rest ih =>
      intro groups hrest h
      exact ih _ (fun r hr => hrest r (List.mem_cons_of_mem _ hr))
        (drawnFrom_addRow (hrest row (by simp)) h)
  exact collected _ [] (fun row hrow => (List.mem_filter.1 hrow).1) (by simp) g hg

theorem Group.DrawnFrom.length_key {keys : List Nat} {rows : List Row} {g : Group}
    (h : g.DrawnFrom keys rows) : g.key.length = keys.length := by
  obtain ⟨⟨first, rest, _, hkey⟩, _⟩ := h
  simp [hkey, Table.pickCells]

theorem nodup_accept {t : Table} {columns : List String} (h : columns.Nodup)
    (aggregations : List Aggregation) :
    (columns ++ (accept t columns aggregations).1.map (·.aggregation.label)).Nodup := by
  induction aggregations generalizing columns with
  | nil => simpa [accept] using h
  | cons a aggregations ih =>
    unfold accept
    split
    · exact ih h
    · split
      · exact ih h
      · next hnew =>
        have hmore : (columns ++ [a.label]).Nodup := by
          simpa only [List.concat_eq_append] using h.concat hnew
        simpa using ih hmore

theorem source_lt_of_mem_accept {t : Table} {columns : List String}
    {aggregations : List Aggregation} {a : Accepted}
    (ha : a ∈ (accept t columns aggregations).1) {i : Nat} (hi : a.source = some i) :
    i < t.columns.length := by
  induction aggregations generalizing columns with
  | nil => simp [accept] at ha
  | cons b aggregations ih =>
    unfold accept at ha
    split at ha
    · exact ih ha
    · next source hsource =>
      split at ha
      · exact ih ha
      · rcases List.mem_cons.1 ha with rfl | ha
        · simp only at hi
          subst hi
          unfold source? at hsource
          split at hsource
          · cases hsource
          · obtain ⟨j, hj, heq⟩ := Option.map_eq_some_iff.1 hsource
            cases heq
            exact Table.lt_of_columnIndex? hj
        · exact ih ha

theorem length_of_row {accepted : List Accepted} {g : Group} {row : Row}
    (h : g.row accepted = .ok row) : row.length = g.key.length + accepted.length := by
  unfold Group.row at h
  obtain ⟨cells, hcells, h⟩ := exists_of_bind_ok h
  cases h
  rw [List.length_append, (forall₂_of_mapM_ok hcells).length_eq]

end Grouping

namespace Table

/-- What a grouping that did not fail gives: the table itself without any known key, else one row
for each group and the notes on the keys, the aggregations and the rows that had no part in it. -/
theorem groupBy_ok {t r : Table} {keys : List String} {aggregations : List Aggregation}
    {notes : List Note} (h : t.groupBy keys aggregations = .ok (r, notes)) :
    (t.knownColumns keys = [] ∧ r = t ∧ notes = [.noGroupKeys keys]) ∨
      t.knownColumns keys ≠ [] ∧ ∃ rows,
        r = ⟨t.pickColumns (t.knownColumns keys) ++
            (Grouping.accept t (t.pickColumns (t.knownColumns keys)) aggregations).1.map
              (·.aggregation.label), rows⟩ ∧
        List.Forall₂ (fun g row => Grouping.Group.row
            (Grouping.accept t (t.pickColumns (t.knownColumns keys)) aggregations).1 g = .ok row)
          (Grouping.ofRows (t.knownColumns keys) t.rows) rows ∧
        notes = (if (t.unknownNames keys).isEmpty then []
            else [.missingGroupKeys (t.unknownNames keys)]) ++
          (Grouping.accept t (t.pickColumns (t.knownColumns keys)) aggregations).2 ++
          if t.rows.countP (Grouping.hasNullKey (t.knownColumns keys)) = 0 then []
          else [.nullGroupKeys (t.rows.countP (Grouping.hasNullKey (t.knownColumns keys)))] := by
  unfold groupBy at h
  dsimp only at h
  split at h
  · next hkeys =>
    cases h
    exact .inl ⟨List.isEmpty_iff.1 hkeys, rfl, rfl⟩
  · next hkeys =>
    split at h
    · next rows hrows =>
      cases h
      exact .inr ⟨mt List.isEmpty_iff.2 hkeys, rows, rfl, forall₂_of_mapM_ok hrows, rfl⟩
    · cases h

theorem WellFormed.of_groupBy {t r : Table} (h : t.WellFormed) {keys : List String}
    {aggregations : List Aggregation} {notes : List Note}
    (hr : t.groupBy keys aggregations = .ok (r, notes)) : r.WellFormed := by
  rcases groupBy_ok hr with ⟨_, rfl, _⟩ | ⟨_, rows, rfl, hrows, _⟩
  · exact h
  · refine ⟨Grouping.nodup_accept (nodup_pickColumns h.1 keys) aggregations, ?_⟩
    intro row hrow
    obtain ⟨g, hg, hgrow⟩ := exists_of_mem_forall₂ hrows hrow
    rw [Grouping.length_of_row hgrow, (Grouping.drawnFrom_ofRows hg).length_key]
    simp [pickColumns]

theorem WellFormed.of_apply {t r : Table} (h : t.WellFormed) {op : Operation} {notes : List Note}
    (hr : op.apply t = .ok (r, notes)) : r.WellFormed := by
  have total : ∀ {applied : Table × List Note}, applied.1.WellFormed →
      (.ok applied : Except NonNumeric (Table × List Note)) = .ok (r, notes) → r.WellFormed := by
    intro applied happlied heq
    cases heq
    exact happlied
  cases op with
  | select fields => exact total (h.select fields) hr
  | filter field value => exact total (h.filter field value) hr
  | groupBy keys aggregations => exact h.of_groupBy hr
  | orderBy field direction => exact total (h.orderBy field direction) hr
  | limit count => exact total (h.limit count) hr

theorem WellFormed.of_runFrom {t r : Table} (h : t.WellFormed) {id : String} {index : Nat}
    {ops : List Operation} {trace : List Diagnostic}
    (hr : runFrom id index t ops = .ok (r, trace)) : r.WellFormed := by
  induction ops generalizing t index trace with
  | nil => cases hr; exact h
  | cons op ops ih =>
    obtain ⟨u, _, _, hu, hrest, _⟩ := runFrom_cons_ok hr
    exact ih (h.of_apply hu) hrest

theorem WellFormed.of_run {t : Table} (h : t.WellFormed) {p : Plan} {o : Outcome}
    (ho : p.run t = .ok o) : ∀ e ∈ o.results, e.2.WellFormed := by
  intro e he
  obtain ⟨r, _, _, trace, hr⟩ := exists_of_mem_forall₂ (runRecipes_ok ho) he
  exact h.of_runFrom hr

theorem wellFormed_of_read {d : Json.Document} {t : Table} (h : Wire.table d = .ok t) :
    t.WellFormed := by
  unfold Wire.table at h
  obtain ⟨raw, _, h⟩ := exists_of_bind_ok h
  split at h
  · next built hbuilt =>
    cases h
    exact wellFormed_of_ofRows hbuilt
  · cases h

/-- The tables that there can be: built from rows or from records, read, cut to their first rows,
or a result of a plan on such a table. -/
inductive Obtainable : Table → Prop where
  | ofRows {columns : List String} {rows : List Row} {t : Table}
      (h : ofRows columns rows = .ok t) : Obtainable t
  | ofRecords {records : List Json.Value} {t : Table} (h : ofRecords records = .ok t) :
      Obtainable t
  | read {d : Json.Document} {t : Table} (h : Wire.table d = .ok t) : Obtainable t
  | head {t : Table} (h : Obtainable t) (n : Nat) : Obtainable (t.head n)
  | result {t : Table} (h : Obtainable t) {p : Plan} {o : Outcome} (ho : p.run t = .ok o)
      {e : String × Table} (he : e ∈ o.results) : Obtainable e.2

theorem Obtainable.wellFormed {t : Table} (h : t.Obtainable) : t.WellFormed := by
  induction h with
  | ofRows h => exact wellFormed_of_ofRows h
  | ofRecords h => exact wellFormed_of_ofRecords h
  | read h => exact wellFormed_of_read h
  | head _ n ih => exact ih.head n
  | result _ ho he ih => exact ih.of_run ho _ he

end Table
end TablePlanner
