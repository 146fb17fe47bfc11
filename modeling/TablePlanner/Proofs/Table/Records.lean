import TablePlanner.Proofs.Execution.Run
import TablePlanner.Proofs.Json.Members
import TablePlanner.Table.Basic

namespace TablePlanner.Table
open Json

section
variable {columns names : List String}

theorem addColumns_eq (columns names : List String) :
    addColumns columns names = columns ++ (names.removeAll columns).eraseDups := by
  unfold addColumns
  induction names generalizing columns with
  | nil => simp
  | cons name names ih =>
    rw [List.foldl_cons, ih]
    by_cases hname : name ∈ columns
    · rw [if_pos hname, List.cons_removeAll]
      simp [hname]
    · have hrest : names.removeAll (columns ++ [name]) =
          (names.removeAll columns).filter fun other => !other == name := by
        simp only [List.removeAll, List.filter_filter]
        apply List.filter_congr
        intro other _
        by_cases hother : other = name <;> simp [hother]
      rw [if_neg hname, List.cons_removeAll, hrest]
      simp [hname, List.eraseDups_cons]

theorem addColumns_of_subset (h : ∀ name ∈ names, name ∈ columns) :
    addColumns columns names = columns := by
  have hnone : names.removeAll columns = [] := by simpa [List.removeAll] using h
  rw [addColumns_eq, hnone]
  simp

theorem addColumns_of_nodup (h : (columns ++ names).Nodup) :
    addColumns columns names = columns ++ names := by
  unfold addColumns
  induction names generalizing columns with
  | nil => simp
  | cons name names ih =>
    have hnew : name ∉ columns := fun hname =>
      (List.nodup_append.1 h).2.2 name hname name (by simp) rfl
    rw [List.foldl_cons, if_neg hnew, ih (by simpa using h)]
    simp

end

/-- The keys of all records, each once, in the order in which they first come. -/
def keysOf (records : List Record) : List String := (records.flatMap (·.map (·.1))).eraseDups

theorem columnsOf_eq_keysOf (records : List Record) : columnsOf records = keysOf records := by
  have hnames : columnsOf records = addColumns [] (records.flatMap (·.map (·.1))) := by
    rw [addColumns, List.foldl_flatMap]
    rfl
  rw [hnames, addColumns_eq]
  simp [keysOf, List.removeAll]

theorem columnsOf_of_same_keys {columns : List String} (hcolumns : columns.Nodup)
    {records : List Record} (hne : records ≠ []) (h : ∀ r ∈ records, r.map (·.1) = columns) :
    columnsOf records = columns := by
  obtain ⟨first, rest, rfl⟩ := List.exists_cons_of_ne_nil hne
  rw [List.forall_mem_cons] at h
  have hrest : rest.foldl (fun cs r => addColumns cs (r.map (·.1))) columns = columns := by
    refine List.foldlRecOn (motive := (· = columns)) rest _ rfl ?_
    rintro _ rfl r hr
    rw [h.2 r hr]
    exact addColumns_of_subset fun _ hname => hname
  rw [columnsOf, List.foldl_cons, h.1, addColumns_of_nodup (by simpa using hcolumns)]
  exact hrest

theorem rowOf_zip {columns : List String} (hcolumns : columns.Nodup) {row : Row}
    (hrow : row.length = columns.length) : rowOf columns (columns.zip row) = row := by
  have hkeys : (columns.zip row).map (·.1) = columns := List.map_fst_zip (Nat.le_of_eq hrow.symm)
  apply List.ext_getElem
  · rw [rowOf, List.length_map, hrow]
  · intro i hi hirow
    have hicolumn : i < columns.length := hrow ▸ hirow
    have hmember : (columns[i], row[i]) ∈ columns.zip row := by
      rw [List.mem_iff_getElem]
      exact ⟨i, by simp [hrow, hicolumn], List.getElem_zip⟩
    have hfound := lookup_of_mem (by rwa [hkeys]) hmember
    simp only [rowOf, List.getElem_map, hfound, Option.getD_some]

section
variable {values : List Value} {index : Nat} {e : TableError}

theorem recordsFrom_objects (index : Nat) (records : List Record) :
    recordsFrom index (records.map .object) = .ok records := by
  induction records generalizing index with
  | nil => rfl
  | cons record records ih =>
    rw [List.map_cons, recordsFrom, ih]
    rfl

theorem ofRecords_objects (records : List Record) :
    ofRecords (records.map .object) =
      .ok ⟨keysOf records, records.map (rowOf (keysOf records))⟩ := by
  rw [ofRecords, recordsFrom_objects, ← columnsOf_eq_keysOf]
  rfl

/-- The first value that is no object stands at an index. -/
def FirstOther (values : List Value) (i : Nat) : Prop :=
  ∃ before v after, values = before ++ v :: after ∧ before.length = i ∧
    (∀ w ∈ before, ∃ members, w = .object members) ∧ ∀ members, v ≠ .object members

theorem recordsFrom_eq_error_iff : recordsFrom index values = .error e ↔
    ∃ i, FirstOther values i ∧ e = .notAnObject (index + i) := by
  constructor
  · intro h
    fun_induction recordsFrom index values with
    | case1 => cases h
    | case2 index members values ih =>
      rcases error_of_bind_error h with h | ⟨rest, -, h⟩
      · obtain ⟨_, ⟨before, v, after, rfl, rfl, hbefore, hv⟩, he⟩ := ih h
        refine ⟨_, ⟨.object members :: before, v, after, rfl, rfl, ?_, hv⟩, ?_⟩
        · exact List.forall_mem_cons.2 ⟨⟨members, rfl⟩, hbefore⟩
        · rw [he, List.length_cons, Nat.add_assoc, Nat.add_comm 1]
      · cases h
    | case3 index v values hv =>
      cases h
      exact ⟨0, ⟨[], v, values, rfl, rfl, by simp, hv⟩, rfl⟩
  · rintro ⟨_, ⟨before, v, after, rfl, rfl, hbefore, hv⟩, rfl⟩
    induction before generalizing index with
    | nil =>
      cases v with
      | object members => exact absurd rfl (hv members)
      | _ => rfl
    | cons w before ih =>
      rw [List.forall_mem_cons] at hbefore
      obtain ⟨⟨members, rfl⟩, hbefore⟩ := hbefore
      rw [List.cons_append, recordsFrom, ih hbefore, List.length_cons, Nat.add_assoc,
        Nat.add_comm 1]
      rfl

theorem ofRecords_eq_error_iff :
    ofRecords values = .error e ↔ ∃ i, FirstOther values i ∧ e = .notAnObject i := by
  have hread : ofRecords values = .error e ↔ recordsFrom 0 values = .error e := by
    unfold ofRecords
    cases recordsFrom 0 values with
    | ok records => exact iff_of_false (fun h => by cases h) (fun h => by cases h)
    | error e' =>
      change Except.error e' = Except.error e ↔ Except.error e' = Except.error e
      simp only [Except.error.injEq]
  rw [hread, recordsFrom_eq_error_iff]
  simp only [Nat.zero_add]

end

/-- A record with a member for each of some keys in turn, which has the value that another record
has under this key, or a null if it has none. -/
def Fills (keys : List String) (record : Record) (filled : Value) : Prop :=
  ∃ members, filled = .object members ∧ members.map (·.1) = keys ∧
    ∀ m ∈ members, record.lookup m.1 = some m.2 ∨ m.1 ∉ record.map (·.1) ∧ m.2 = .null

theorem lookup_eq_none_iff {record : Record} {key : String} :
    record.lookup key = none ↔ key ∉ record.map (·.1) := by
  rw [List.lookup_eq_none_iff, List.mem_map, not_exists]
  refine forall_congr' fun m => ?_
  rw [not_and, bne_iff_ne, ne_comm]

theorem fills_rowOf (keys : List String) (record : Record) :
    Fills keys record (toRecord keys (rowOf keys record)) := by
  have hmembers : keys.zip (rowOf keys record) =
      keys.map fun key => (key, (record.lookup key).getD .null) := by
    conv_lhs => arg 1; rw [← List.map_id keys]
    exact List.zip_map'
  refine ⟨_, rfl, ?_, ?_⟩
  · rw [hmembers, List.map_map]
    exact List.map_id _
  · intro m hm
    rw [hmembers] at hm
    obtain ⟨key, -, rfl⟩ := List.mem_map.1 hm
    dsimp only
    cases hfound : record.lookup key with
    | some v => exact .inl rfl
    | none => exact .inr ⟨lookup_eq_none_iff.1 hfound, rfl⟩

theorem WellFormed.ofRecords_toRecords {t : Table} (h : t.WellFormed) (hrows : t.rows ≠ []) :
    ofRecords t.toRecords = .ok t := by
  have hkeys : ∀ r ∈ t.rows.map (t.columns.zip ·), r.map (·.1) = t.columns := by
    intro r hr
    obtain ⟨row, hrow, rfl⟩ := List.mem_map.1 hr
    exact List.map_fst_zip (Nat.le_of_eq (h.2 row hrow).symm)
  have hcolumns : keysOf (t.rows.map (t.columns.zip ·)) = t.columns := by
    rw [← columnsOf_eq_keysOf]
    exact columnsOf_of_same_keys h.1 (by simpa using hrows) hkeys
  have hback : (t.rows.map (t.columns.zip ·)).map (rowOf t.columns) = t.rows := by
    rw [List.map_map]
    conv_rhs => rw [← List.map_id t.rows]
    exact List.map_congr_left fun row hrow => rowOf_zip h.1 (h.2 row hrow)
  have hrecords : t.toRecords = (t.rows.map (t.columns.zip ·)).map .object := by
    rw [List.map_map]
    rfl
  rw [hrecords, ofRecords_objects, hcolumns, hback]

theorem fills_records (records : List Record) :
    ∃ t, ofRecords (records.map .object) = .ok t ∧
      List.Forall₂ (Fills (keysOf records)) records t.toRecords := by
  refine ⟨_, ofRecords_objects records, ?_⟩
  rw [toRecords, List.map_map, List.forall₂_map_right_iff]
  exact List.forall₂_same.2 fun record _ => fills_rowOf (keysOf records) record

/-- A table that has rows is read back from its records, and a list of records is given back by its
table with each record filled up to all keys. Only a value that is no object keeps a list from
being a table, and the first such value is named. -/
theorem records_round_trip :
    (∀ t : Table, t.WellFormed → t.rows ≠ [] → ofRecords t.toRecords = .ok t) ∧
      (∀ records : List Record, ∃ filled, ofRecords (records.map .object) = .ok filled ∧
        List.Forall₂ (Fills (keysOf records)) records filled.toRecords) ∧
      ∀ values e, ofRecords values = .error e ↔ ∃ i, FirstOther values i ∧ e = .notAnObject i :=
  ⟨fun _ h hrows => h.ofRecords_toRecords hrows, fills_records, fun _ _ => ofRecords_eq_error_iff⟩

def deliveries : Table where
  columns := ["Region", "Amount", "Note"]
  rows := [[.string "Seoul", .int 100, .null], [.string "Busan", .null, .string "late"]]

def sparse : List Record :=
  [[("Region", .string "Seoul"), ("Amount", .int 100)],
   [("Note", .string "late"), ("Region", .string "Busan")]]

theorem deliveries_round_trip :
    deliveries.WellFormed ∧ deliveries.rows ≠ [] ∧ ofRecords deliveries.toRecords = .ok deliveries ∧
      keysOf sparse = deliveries.columns ∧
      (∃ filled, ofRecords (sparse.map .object) = .ok filled ∧
        List.Forall₂ (Fills deliveries.columns) sparse filled.toRecords) ∧
      ofRecords [.object [], .int 1, .null] = .error (.notAnObject 1) := by
  have hwf : deliveries.WellFormed := ⟨by decide, by decide⟩
  obtain ⟨hback, hfilled, herror⟩ := records_round_trip
  have hkeys : keysOf sparse = deliveries.columns := by
    rw [← columnsOf_eq_keysOf]
    decide
  have hrows : deliveries.rows ≠ [] := by decide
  refine ⟨hwf, hrows, hback deliveries hwf hrows, hkeys, hkeys ▸ hfilled sparse, (herror _ _).2 ?_⟩
  exact ⟨1, ⟨[.object []], .int 1, [.null], rfl, rfl, by simp, fun _ => by simp [Value.int]⟩, rfl⟩

end TablePlanner.Table
