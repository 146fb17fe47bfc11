import TablePlanner.Preview.Format
import TablePlanner.Proofs.Execution.Notes
import TablePlanner.Proofs.Numeric.Binary64
import TablePlanner.Proofs.Preview.Thousands
import TablePlanner.Proofs.Table.Access

namespace TablePlanner

namespace Json.Value
variable {v : Value}

theorem isNull_iff : v.isNull = true ↔ v = .null := by
  cases v <;> simp [isNull]

theorem isNumber_iff : v.isNumber = true ↔ ∃ n, v = .number n := by
  cases v <;> simp [isNumber]

end Json.Value

open Json

namespace Preview
variable {rules : Rules} {ratio : Binary64} {tokens : List String} {name : String}
  {cells : List Value} {v w : Value}

/-- The cells are texts and nulls, one is a text, and there are enough dates among them. -/
structure ShowsDates (ratio : Binary64) (cells : List Value) : Prop where
  texts : ∀ v ∈ cells, v = .null ∨ ∃ s, v = .string s
  some_text : ∃ s, .string s ∈ cells
  dates : neededDates cells.length ratio ≤ (cells.filter fun v => (date? v).isSome).length

/-- The lowercased name holds a token, and the cells are numbers and nulls. -/
structure ShowsAmounts (tokens : List String) (name : String) (cells : List Value) : Prop where
  named : ∃ token ∈ tokens, token.toList <:+: Text.lower name.toList
  numbers : ∀ v ∈ cells, v = .null ∨ ∃ n, v = .number n

theorem neededDates_of_mul? {height : Nat} {share : Binary64}
    (hshare : (Binary64.ofInt height).mul? ratio = some share)
    (hle : share.floorNat ≤ greatestNat64) : neededDates height ratio = max 1 share.floorNat := by
  simp only [neededDates, hshare]
  rw [min_eq_left hle, max_comm]

theorem neededDates_eq {height : Nat} (h : height ≤ Binary64.greatestExact)
    (hratio : ratio.negative = false)
    (hproduct : Binary64.Representable (height * ratio.units))
    (hle : height * ratio.units / Binary64.one ≤ greatestNat64) :
    neededDates height ratio = max 1 (height * ratio.units / Binary64.one) := by
  have hshare : (Binary64.ofInt height).mul? ratio = some ⟨false, height * ratio.units⟩ := by
    rw [Binary64.ofInt_mul? h, hratio, Binary64.ofRatio?,
      Binary64.nearest_of_representable hproduct]
    exact if_pos hproduct.2
  exact neededDates_of_mul? hshare hle

theorem isText_iff : isText v = true ↔ ∃ s, v = .string s := by
  cases v <;> simp [isText]

theorem isDateColumn_iff : isDateColumn ratio cells = true ↔ ShowsDates ratio cells := by
  have hany : (∃ v ∈ cells, ∃ s, v = Value.string s) ↔ ∃ s, Value.string s ∈ cells :=
    ⟨fun ⟨_, hv, s, hs⟩ => ⟨s, hs ▸ hv⟩, fun ⟨s, hs⟩ => ⟨_, hs, s, rfl⟩⟩
  simp only [isDateColumn, Bool.and_eq_true, List.all_eq_true, List.any_eq_true, Bool.or_eq_true,
    Value.isNull_iff, isText_iff, hany, decide_eq_true_eq, List.countP_eq_length_filter]
  exact ⟨fun ⟨⟨htexts, hsome⟩, hdates⟩ => ⟨htexts, hsome, hdates⟩,
    fun ⟨htexts, hsome, hdates⟩ => ⟨⟨htexts, hsome⟩, hdates⟩⟩

theorem isCurrencyColumn_iff :
    isCurrencyColumn tokens name cells = true ↔ ShowsAmounts tokens name cells := by
  simp only [isCurrencyColumn, Bool.and_eq_true, List.any_eq_true, List.all_eq_true,
    Bool.or_eq_true, Value.isNull_iff, Value.isNumber_iff, Text.holds, Text.occurs_iff_infix,
    Text.lowercase, String.toList_ofList]
  exact ⟨fun ⟨hnamed, hnumbers⟩ => ⟨hnamed, hnumbers⟩,
    fun ⟨hnamed, hnumbers⟩ => ⟨hnamed, hnumbers⟩⟩

/-- What a cell of a column with a name and some cells is shown as. -/
inductive Shown (rules : Rules) (name : String) (cells : List Value) : Value → Value → Prop where
  | date (h : ShowsDates rules.dateRatio cells) {s : String} {d : Date}
      (hd : Date.ofText? s = some d) : Shown rules name cells (.string s) (.string d.render)
  | blank (h : ShowsDates rules.dateRatio cells) {v : Value}
      (hv : ∀ s, v = .string s → Date.ofText? s = none) : Shown rules name cells v .null
  | amount (h : ¬ ShowsDates rules.dateRatio cells)
      (h' : ShowsAmounts rules.currencyTokens name cells) (n : Number) :
      Shown rules name cells (.number n) (.string (thousands (wholeAmount n)))
  | noAmount (h : ¬ ShowsDates rules.dateRatio cells)
      (h' : ShowsAmounts rules.currencyTokens name cells) : Shown rules name cells .null .null
  | plain (h : ¬ ShowsDates rules.dateRatio cells)
      (h' : ¬ ShowsAmounts rules.currencyTokens name cells) (v : Value) :
      Shown rules name cells v v

theorem date?_eq_none (h : ∀ s, v = .string s → Date.ofText? s = none) : date? v = none := by
  cases v with
  | string s => exact h s rfl
  | _ => rfl

theorem dateCell_of_some {d : Date} (h : date? v = some d) : dateCell v = .string d.render := by
  rw [dateCell, h]

theorem dateCell_of_none (h : date? v = none) : dateCell v = .null := by
  rw [dateCell, h]

theorem Shown.cellRule_eq (h : Shown rules name cells v w) : cellRule rules name cells v = w := by
  unfold cellRule
  cases h with
  | date h hd =>
    rw [if_pos (isDateColumn_iff.2 h)]
    exact dateCell_of_some hd
  | blank h hv =>
    rw [if_pos (isDateColumn_iff.2 h)]
    exact dateCell_of_none (date?_eq_none hv)
  | amount h h' n =>
    rw [if_neg (mt isDateColumn_iff.1 h), if_pos (isCurrencyColumn_iff.2 h')]
    rfl
  | noAmount h h' =>
    rw [if_neg (mt isDateColumn_iff.1 h), if_pos (isCurrencyColumn_iff.2 h')]
    rfl
  | plain h h' v =>
    rw [if_neg (mt isDateColumn_iff.1 h), if_neg (mt isCurrencyColumn_iff.1 h')]
    rfl

theorem exists_shown (rules : Rules) (name : String) (hv : v ∈ cells) :
    ∃ w, Shown rules name cells v w := by
  by_cases hdates : ShowsDates rules.dateRatio cells
  · by_cases hdate : ∃ s d, v = .string s ∧ Date.ofText? s = some d
    · obtain ⟨s, d, rfl, hd⟩ := hdate
      exact ⟨_, .date hdates hd⟩
    · refine ⟨_, .blank hdates fun s hs => ?_⟩
      rw [Option.eq_none_iff_forall_ne_some]
      exact fun d hd => hdate ⟨s, d, hs, hd⟩
  by_cases hamounts : ShowsAmounts rules.currencyTokens name cells
  · rcases hamounts.numbers v hv with rfl | ⟨n, rfl⟩
    · exact ⟨_, .noAmount hdates hamounts⟩
    · exact ⟨_, .amount hdates hamounts n⟩
  · exact ⟨v, .plain hdates hamounts v⟩

theorem shown_iff (hv : v ∈ cells) :
    Shown rules name cells v w ↔ cellRule rules name cells v = w := by
  constructor
  · exact Shown.cellRule_eq
  · rintro rfl
    obtain ⟨w, hw⟩ := exists_shown rules name hv
    rwa [hw.cellRule_eq]

end Preview

namespace Table
open Preview
variable {t : Table} {rules : Rules}

/-- How the cells of the column with an index are shown in a table. -/
def ruleAt (rules : Rules) (t : Table) (i : Nat) : Value → Value :=
  cellRule rules (t.columns.getD i "") (t.columnCells i)

def showColumn (rules : Rules) (t : Table) (i : Nat) : Table :=
  ⟨t.columns, t.rows.map fun row => row.modify i (ruleAt rules t i)⟩

/-- The table with its first columns shown in place, one after another. -/
def showColumns (rules : Rules) (t : Table) (count : Nat) : Table :=
  (List.range count).foldl (showColumn rules) t

def shownUpTo (rules : Rules) (t : Table) (count : Nat) (row : Row) : Row :=
  row.mapIdx fun i v => if i < count then ruleAt rules t i v else v

theorem getElem?_shownUpTo (count : Nat) (row : Row) (i : Nat) :
    (shownUpTo rules t count row)[i]? =
      row[i]?.map fun v => if i < count then ruleAt rules t i v else v := by
  rw [shownUpTo, List.getElem?_mapIdx]

theorem shownUpTo_zero (rules : Rules) (t : Table) : shownUpTo rules t 0 = id := by
  funext row
  apply List.ext_getElem?
  simp [getElem?_shownUpTo]

theorem ruleAt_shownUpTo (count : Nat) :
    ruleAt rules ⟨t.columns, t.rows.map (shownUpTo rules t count)⟩ count =
      ruleAt rules t count := by
  -- A column that was not shown yet still has the cells of the table.
  have hcells : columnCells ⟨t.columns, t.rows.map (shownUpTo rules t count)⟩ count =
      t.columnCells count := by
    simp [columnCells, List.filterMap_map, getElem?_shownUpTo]
  rw [ruleAt, hcells]
  rfl

theorem modify_shownUpTo (count : Nat) (row : Row) :
    (shownUpTo rules t count row).modify count (ruleAt rules t count) =
      shownUpTo rules t (count + 1) row := by
  apply List.ext_getElem?
  intro i
  rw [List.getElem?_modify, getElem?_shownUpTo, getElem?_shownUpTo, Option.map_eq_map,
    Option.map_map]
  congr 1
  funext v
  rcases lt_trichotomy i count with hlt | rfl | hgt
  · simp [hlt.ne', hlt, Nat.lt_succ_of_lt hlt]
  · simp
  · simp [hgt.ne, hgt.not_gt, Nat.not_lt.2 (Nat.succ_le_of_lt hgt)]

theorem showColumns_eq (rules : Rules) (t : Table) (count : Nat) :
    showColumns rules t count = ⟨t.columns, t.rows.map (shownUpTo rules t count)⟩ := by
  induction count with
  | zero =>
    rw [shownUpTo_zero, List.map_id]
    rfl
  | succ count ih =>
    have hstep : showColumns rules t (count + 1) =
        showColumn rules (showColumns rules t count) count := by
      rw [showColumns, List.range_succ, List.foldl_append]
      rfl
    rw [hstep, ih, showColumn, ruleAt_shownUpTo, List.map_map]
    congr 2
    exact funext fun row => modify_shownUpTo count row

theorem WellFormed.columnCells_eq (h : t.WellFormed) {i : Nat} (hi : i < t.columns.length) :
    t.columnCells i = t.columnOf t.columns[i] := by
  have hcells : ∀ row ∈ t.rows, row[i]? = some (t.cellOf row t.columns[i]) := by
    intro row hrow
    rw [cellOf, h.1.idxOf_getElem i hi, getElem?_eq_cell (h.lt_length hi row hrow)]
  rw [columnCells, columnOf, ← List.filterMap_eq_map]
  exact List.filterMap_congr hcells

theorem zipWith_cellRules {row : Row} (hrow : row.length = t.columns.length) :
    List.zipWith (· ·)
        (t.columns.zipIdx.map fun (name, i) => cellRule rules name (t.columnCells i)) row =
      shownUpTo rules t t.width row := by
  apply List.ext_getElem
  · simp [shownUpTo, hrow]
  · intro i hi hi'
    have hcolumn : i < t.columns.length := by
      simpa [shownUpTo, hrow] using hi'
    simp [shownUpTo, ruleAt, width, hcolumn]

/-- The rules of a preview are those of a pass that shows the columns in place. -/
theorem WellFormed.preview_eq_showColumns (h : t.WellFormed) (rules : Rules) :
    t.preview rules = (showColumns rules (t.head rules.rowLimit) t.width).toRecords := by
  rw [showColumns_eq, toRecords, List.map_map]
  apply List.map_congr_left
  intro row hrow
  have hlength := (h.head rules.rowLimit).2 row hrow
  exact congrArg (toRecord t.columns) (zipWith_cellRules hlength)

theorem WellFormed.zip_shownUpTo (h : t.WellFormed) {row : Row} (hrow : row ∈ t.rows) :
    t.columns.zip (shownUpTo rules t t.width row) =
      t.columns.map fun name =>
        (name, cellRule rules name (t.columnOf name) (t.cellOf row name)) := by
  have hlength := h.2 row hrow
  apply List.ext_getElem
  · simp [shownUpTo, hlength]
  · intro i hi hi'
    have hcolumn : i < t.columns.length := by
      simpa using hi'
    have hcell : row[i] = t.cellOf row t.columns[i] := by
      rw [cellOf, h.1.idxOf_getElem i hcolumn, cell, List.getElem_eq_getD]
    simp [shownUpTo, ruleAt, width, hcolumn, h.columnCells_eq hcolumn, hcell]

theorem WellFormed.preview_eq (h : t.WellFormed) (rules : Rules) :
    t.preview rules =
      (t.rows.take rules.rowLimit).map fun row => .object (t.columns.map fun name =>
        (name, cellRule rules name ((t.head rules.rowLimit).columnOf name)
          (t.cellOf row name))) := by
  rw [h.preview_eq_showColumns, showColumns_eq, toRecords, List.map_map]
  apply List.map_congr_left
  intro row hrow
  exact congrArg Value.object ((h.head rules.rowLimit).zip_shownUpTo hrow)

/-- A record that shows a row: a member for each column in turn, shown by the rule of the column. -/
def ShowsRow (t : Table) (rules : Rules) (row : Row) (record : Value) : Prop :=
  ∃ members, record = .object members ∧ members.map (·.1) = t.columns ∧
    ∀ m ∈ members,
      Shown rules m.1 ((t.head rules.rowLimit).columnOf m.1) (t.cellOf row m.1) m.2

theorem showsRow_iff {row : Row} (hrow : row ∈ t.rows.take rules.rowLimit) {record : Value} :
    t.ShowsRow rules row record ↔
      record = .object (t.columns.map fun name =>
        (name, cellRule rules name ((t.head rules.rowLimit).columnOf name)
          (t.cellOf row name))) := by
  have hcell : ∀ name, t.cellOf row name ∈ (t.head rules.rowLimit).columnOf name := fun name =>
    cellOf_mem (t := t.head rules.rowLimit) hrow name
  constructor
  · rintro ⟨members, rfl, hcolumns, hshown⟩
    rw [← hcolumns, List.map_map]
    congr 1
    conv_lhs => rw [← List.map_id members]
    apply List.map_congr_left
    intro m hm
    exact Prod.ext rfl ((shown_iff (hcell m.1)).1 (hshown m hm)).symm
  · rintro rfl
    refine ⟨_, rfl, ?_, ?_⟩
    · rw [List.map_map]
      exact List.map_id _
    · intro m hm
      obtain ⟨name, -, rfl⟩ := List.mem_map.1 hm
      exact (shown_iff (hcell name)).2 rfl

theorem forall₂_iff_eq_map {α β : Type} {R : α → β → Prop} {f : α → β} {xs : List α}
    (h : ∀ x ∈ xs, ∀ y, R x y ↔ y = f x) {ys : List β} :
    List.Forall₂ R xs ys ↔ ys = xs.map f := by
  induction xs generalizing ys with
  | nil => simp
  | cons x xs ih =>
    have hxs := fun x' hx' => h x' (List.mem_cons_of_mem _ hx')
    simp only [List.forall₂_cons_left_iff, h x List.mem_cons_self, ih hxs, List.map_cons]
    exact ⟨fun ⟨_, _, hy, hys, h⟩ => hy ▸ hys ▸ h, fun h => ⟨_, _, rfl, rfl, h⟩⟩

theorem WellFormed.eq_preview_iff (h : t.WellFormed) {records : List Value} :
    records = t.preview rules ↔
      List.Forall₂ (t.ShowsRow rules) (t.rows.take rules.rowLimit) records := by
  rw [h.preview_eq]
  exact (forall₂_iff_eq_map fun row hrow record => showsRow_iff hrow).symm

theorem length_preview (t : Table) (rules : Rules) :
    (t.preview rules).length = min rules.rowLimit t.height := by
  simp [preview, Table.head, height]

/-- What a preview shows. There is a record for each of the first rows, with the columns of the
table in order, and in it a column is shown as its name and its own cells in these rows say.
Showing the columns in place one after another comes to the same. The dates that a column needs are
the share of the rows that the ratio says, rounded down, and at least one. An amount has its digits
in groups. -/
theorem preview_shows_columns (h : t.WellFormed) (rules : Rules) :
    (t.preview rules).length = min rules.rowLimit t.height ∧
      (∀ records, records = t.preview rules ↔
        List.Forall₂ (t.ShowsRow rules) (t.rows.take rules.rowLimit) records) ∧
      t.preview rules = (showColumns rules (t.head rules.rowLimit) t.width).toRecords ∧
      (∀ (height : Nat) share, (Binary64.ofInt height).mul? rules.dateRatio = some share →
        share.floorNat ≤ greatestNat64 →
        neededDates height rules.dateRatio = max 1 share.floorNat) ∧
      (∀ height ≤ Binary64.greatestExact, rules.dateRatio.negative = false →
        Binary64.Representable (height * rules.dateRatio.units) →
        height * rules.dateRatio.units / Binary64.one ≤ greatestNat64 →
        neededDates height rules.dateRatio =
          max 1 (height * rules.dateRatio.units / Binary64.one)) ∧
      ∀ amount : Int, ∃ text, Grouped (Nat.toDigits 10 amount.natAbs) text ∧
        (thousands amount).toList = (if amount < 0 then ['-'] else []) ++ text :=
  ⟨length_preview t rules, fun _ => h.eq_preview_iff, h.preview_eq_showColumns rules,
    fun _ _ => neededDates_of_mul?, fun _ => neededDates_eq, exists_grouped_thousands⟩

def payments : Table where
  columns := ["Date", "Amount", "Amount note"]
  rows := [
    [.string "2023/10/01", .int 1234567, .string "paid"],
    [.string "unknown", .null, .int 7],
    [.int 3, .string "late", .null]]

def firstTwo : Rules := { Rules.standard with rowLimit := 2 }

theorem payments_preview :
    payments.WellFormed ∧
    payments.preview firstTwo = [
      .object [("Date", .string "2023-10-01"), ("Amount", .string "1,234,567"),
        ("Amount note", .string "paid")],
      .object [("Date", .null), ("Amount", .null), ("Amount note", .int 7)]] ∧
    neededDates 4 firstTwo.dateRatio = 2 := by
  have hdates : ShowsDates firstTwo.dateRatio [.string "2023/10/01", .string "unknown"] :=
    isDateColumn_iff.1 (by decide +kernel)
  have hnumbers : ¬ ShowsDates firstTwo.dateRatio [.int 1234567, .null] :=
    mt isDateColumn_iff.2 (by decide +kernel)
  have hamounts : ShowsAmounts firstTwo.currencyTokens "Amount" [.int 1234567, .null] :=
    isCurrencyColumn_iff.1 (by decide +kernel)
  have hmixed : ¬ ShowsDates firstTwo.dateRatio [.string "paid", .int 7] :=
    mt isDateColumn_iff.2 (by decide +kernel)
  have hnoted : ¬ ShowsAmounts firstTwo.currencyTokens "Amount note" [.string "paid", .int 7] :=
    mt isCurrencyColumn_iff.2 (by decide +kernel)
  have hwf : payments.WellFormed := ⟨by decide, by decide⟩
  obtain ⟨-, hrecords, -, -, hneeded, -⟩ := preview_shows_columns hwf firstTwo
  refine ⟨hwf, ((hrecords _).2 ?_).symm, ?_⟩
  swap
  · have hproduct : 4 * firstTwo.dateRatio.units = 2 * Binary64.one := by decide +kernel
    rw [hneeded 4 (by decide) rfl]
    · decide +kernel
    · rw [hproduct]
      exact Binary64.representable_mul_one (by decide)
    · decide +kernel
  refine .cons ⟨_, rfl, rfl, ?_⟩ (.cons ⟨_, rfl, rfl, ?_⟩ .nil)
  · simp only [List.forall_mem_cons]
    refine ⟨?_, ?_, ?_, ?_⟩
    · have hdate : Date.ofText? "2023/10/01" = some ⟨2023, 10, 1⟩ := by decide +kernel
      have hrender : Date.render ⟨2023, 10, 1⟩ = "2023-10-01" := by decide +kernel
      rw [← hrender]
      exact .date hdates hdate
    · have htext : thousands (wholeAmount (.integer 1234567)) = "1,234,567" := by decide +kernel
      rw [← htext]
      exact .amount hnumbers hamounts _
    · exact .plain hmixed hnoted _
    · simp
  · simp only [List.forall_mem_cons]
    refine ⟨?_, ?_, ?_, ?_⟩
    · refine .blank hdates ?_
      rintro s ⟨⟩
      decide +kernel
    · exact .noAmount hnumbers hamounts
    · exact .plain hmixed hnoted _
    · simp

end Table
end TablePlanner
