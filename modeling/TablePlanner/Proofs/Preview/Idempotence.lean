import TablePlanner.Proofs.Calendar.Layouts
import TablePlanner.Proofs.Preview.Columns
import TablePlanner.Proofs.Table.Records

/-! The dates of a preview are read back, so a column of dates stays one. An amount with separators
is neither a date nor a number, so a column of amounts becomes one of plain texts. -/
namespace TablePlanner
open Json

namespace Preview
variable {rules : Rules} {ratio : Binary64} {name : String} {cells : List Value} {v : Value}

theorem ofText?_thousands (n : Int) : Date.ofText? (thousands n) = none := by
  have hchars : ∀ c ∈ groupDigits true (Nat.toDigits 10 n.natAbs), c = ',' ∨ c.isDigit = true :=
    fun c hc => (mem_groupDigits hc).imp_right (Document.isDigit_of_mem_toDigits c)
  have hblank : ∀ c ∈ groupDigits true (Nat.toDigits 10 n.natAbs), Text.isBlank c = false := by
    intro c hc
    rcases hchars c hc with rfl | hdigit
    · decide
    · exact Text.isBlank_of_isDigit hdigit
  have htrim : Text.trim (thousands n).toList = thousandsText n := by
    rw [thousands, String.toList_ofList]
    refine Text.trim_eq_self (List.forall_mem_append.2 ⟨?_, hblank⟩)
    split
    · exact List.forall_mem_singleton.2 rfl
    · exact List.forall_mem_nil _
  have htail : (thousandsText n).tail ⊆ groupDigits true (Nat.toDigits 10 n.natAbs) := by
    unfold thousandsText
    split
    · exact List.Subset.refl _
    · exact (List.tail_suffix _).subset
  refine Date.ofText?_eq_none fun c hc hmem => ?_
  rw [htrim] at hmem
  have hnone : ∀ c ∈ ['-', '/', '.'], c ≠ ',' ∧ c.isDigit = false := by
    simp only [List.forall_mem_cons]
    exact ⟨by decide, by decide, by decide, List.forall_mem_nil _⟩
  rcases hchars c (htail hmem) with hcomma | hdigit
  · exact (hnone c hc).1 hcomma
  · simp [(hnone c hc).2] at hdigit

theorem date?_string (s : String) : date? (.string s) = Date.ofText? s := rfl

theorem valid_of_date? {d : Date} (h : date? v = some d) : d.Valid := by
  cases v with
  | string s => exact Date.valid_of_ofText? h
  | _ => cases h

theorem date?_dateCell (v : Value) : date? (dateCell v) = date? v := by
  cases hd : date? v with
  | none =>
    rw [dateCell_of_none hd]
    rfl
  | some d => rw [dateCell_of_some hd, date?_string, Date.ofText?_render (valid_of_date? hd)]

theorem dateCell_dateCell (v : Value) : dateCell (dateCell v) = dateCell v := by
  cases hd : date? v with
  | none => rw [dateCell_of_none hd, dateCell_of_none rfl]
  | some d => rw [dateCell_of_some ((date?_dateCell v).trans hd), dateCell_of_some hd]

theorem currencyCell_currencyCell (v : Value) : currencyCell (currencyCell v) = currencyCell v := by
  cases v <;> rfl

theorem exists_date (h : ShowsDates ratio cells) : ∃ v ∈ cells, (date? v).isSome := by
  have hpos : 0 < (cells.filter fun v => (date? v).isSome).length :=
    (Nat.zero_lt_one.trans_le (le_max_right _ _)).trans_le h.dates
  obtain ⟨v, hv⟩ := List.exists_mem_of_length_pos hpos
  exact ⟨v, List.mem_filter.1 hv⟩

theorem ShowsDates.map_dateCell (h : ShowsDates ratio cells) :
    ShowsDates ratio (cells.map dateCell) := by
  refine ⟨?_, ?_, ?_⟩
  · intro w hw
    obtain ⟨v, -, rfl⟩ := List.mem_map.1 hw
    unfold dateCell
    split
    · exact .inr ⟨_, rfl⟩
    · exact .inl rfl
  · obtain ⟨v, hv, hdate⟩ := exists_date h
    obtain ⟨d, hd⟩ := Option.isSome_iff_exists.1 hdate
    refine ⟨d.render, List.mem_map.2 ⟨v, hv, ?_⟩⟩
    rw [dateCell, hd]
  · have hdates : (fun v => (date? v).isSome) ∘ dateCell = fun v => (date? v).isSome :=
      funext fun v => congrArg Option.isSome (date?_dateCell v)
    rw [List.length_map, List.filter_map, List.length_map, hdates]
    exact h.dates

theorem not_showsDates_map_currencyCell (h : ∀ v ∈ cells, v = .null ∨ ∃ n, v = .number n) :
    ¬ ShowsDates ratio (cells.map currencyCell) := by
  intro hdates
  obtain ⟨w, hw, hdate⟩ := exists_date hdates
  obtain ⟨v, hv, rfl⟩ := List.mem_map.1 hw
  rcases h v hv with rfl | ⟨n, rfl⟩
  · cases hdate
  · simp [currencyCell, date?, ofText?_thousands] at hdate

/-- A column that shows a column shows what it shows. -/
theorem cellRule_cellRule (rules : Rules) (name : String) (cells : List Value) (v : Value) :
    cellRule rules name (cells.map (cellRule rules name cells)) (cellRule rules name cells v) =
      cellRule rules name cells v := by
  by_cases hdates : ShowsDates rules.dateRatio cells
  · have hrule : cellRule rules name cells = dateCell := if_pos (isDateColumn_iff.2 hdates)
    have hagain : cellRule rules name (cells.map dateCell) = dateCell :=
      if_pos (isDateColumn_iff.2 hdates.map_dateCell)
    rw [hrule, hagain, dateCell_dateCell]
  by_cases hamounts : ShowsAmounts rules.currencyTokens name cells
  · have hrule : cellRule rules name cells = currencyCell :=
      (if_neg (mt isDateColumn_iff.1 hdates)).trans (if_pos (isCurrencyColumn_iff.2 hamounts))
    have hnone : ¬ ShowsDates rules.dateRatio (cells.map currencyCell) :=
      not_showsDates_map_currencyCell hamounts.numbers
    rw [hrule, cellRule, if_neg (mt isDateColumn_iff.1 hnone)]
    -- A column of nothing but nulls still counts as one of amounts.
    split
    · exact currencyCell_currencyCell v
    · rfl
  · have hrule : cellRule rules name cells = id :=
      (if_neg (mt isDateColumn_iff.1 hdates)).trans (if_neg (mt isCurrencyColumn_iff.1 hamounts))
    rw [hrule, List.map_id, hrule]
    rfl

end Preview

namespace Table
open Preview
variable {t : Table} {rules : Rules}

def shown (t : Table) (rules : Rules) : Table :=
  ⟨t.columns, t.rows.map (shownUpTo rules t t.width)⟩

theorem WellFormed.preview_eq_shown (h : t.WellFormed) (rules : Rules) :
    t.preview rules = ((t.head rules.rowLimit).shown rules).toRecords := by
  rw [h.preview_eq_showColumns, showColumns_eq]
  rfl

theorem WellFormed.shown (h : t.WellFormed) (rules : Rules) : (t.shown rules).WellFormed := by
  refine ⟨h.1, fun row' hrow' => ?_⟩
  obtain ⟨row, hrow, rfl⟩ := List.mem_map.1 hrow'
  rw [shownUpTo, List.length_mapIdx]
  exact h.2 row hrow

theorem columnCells_shown {i : Nat} (hi : i < t.width) :
    (t.shown rules).columnCells i = (t.columnCells i).map (ruleAt rules t i) := by
  simp [columnCells, Table.shown, List.filterMap_map, List.map_filterMap, getElem?_shownUpTo, hi]

theorem ruleAt_shown {i : Nat} (hi : i < t.width) (v : Value) :
    ruleAt rules (t.shown rules) i (ruleAt rules t i v) = ruleAt rules t i v := by
  rw [ruleAt, columnCells_shown hi]
  exact cellRule_cellRule rules _ _ v

theorem shown_shown (t : Table) (rules : Rules) : (t.shown rules).shown rules = t.shown rules := by
  have hrow : ∀ row, shownUpTo rules (t.shown rules) t.width (shownUpTo rules t t.width row) =
      shownUpTo rules t t.width row := by
    intro row
    apply List.ext_getElem?
    intro i
    rw [getElem?_shownUpTo, getElem?_shownUpTo, Option.map_map]
    congr 1
    funext v
    by_cases hi : i < t.width
    · simp [hi, ruleAt_shown hi]
    · simp [hi]
  have hrows : ((t.shown rules).shown rules).rows = (t.shown rules).rows := by
    simp only [Table.shown, List.map_map]
    exact List.map_congr_left fun row _ => hrow row
  exact congrArg (Table.mk t.columns) hrows

theorem WellFormed.preview_shown (h : t.WellFormed) (hheight : t.height ≤ rules.rowLimit) :
    (t.shown rules).preview rules = (t.shown rules).toRecords := by
  have hlength : (t.shown rules).rows.length ≤ rules.rowLimit :=
    (List.length_map _).trans_le hheight
  have hhead : (t.shown rules).head rules.rowLimit = t.shown rules :=
    congrArg (Table.mk t.columns) (List.take_of_length_le hlength)
  rw [(h.shown rules).preview_eq_shown, hhead, shown_shown]

/-- The records of a preview are those of a table, and its preview by the same rules is these
records again. -/
theorem preview_idempotent (h : t.WellFormed) (rules : Rules) :
    ∃ again, ofRecords (t.preview rules) = .ok again ∧ again.preview rules = t.preview rules := by
  have hhead := h.head rules.rowLimit
  rw [h.preview_eq_shown]
  by_cases hrows : ((t.head rules.rowLimit).shown rules).rows = []
  · refine ⟨⟨[], []⟩, ?_, ?_⟩
    · rw [toRecords, hrows]
      rfl
    · rw [toRecords, hrows]
      simp [preview, Table.head]
  · refine ⟨_, (hhead.shown rules).ofRecords_toRecords hrows, hhead.preview_shown ?_⟩
    exact List.length_take_le _ _

def reigns : Table where
  columns := ["Since", "Price"]
  rows := [[.string "-0044/3/15", .int 1234567], [.string "soon", .null],
    [.string "+10000-1-1", .int (-1000)]]

theorem reigns_preview :
    reigns.WellFormed ∧
      (reigns.preview Rules.standard).map Value.render = [
        "\x7b\"Since\":\"-0044-03-15\",\"Price\":\"1,234,567\"\x7d",
        "\x7b\"Since\":null,\"Price\":null\x7d",
        "\x7b\"Since\":\"+10000-01-01\",\"Price\":\"-1,000\"\x7d"] ∧
      ∃ again, ofRecords (reigns.preview Rules.standard) = .ok again ∧
        again.preview Rules.standard = reigns.preview Rules.standard := by
  have hwf : reigns.WellFormed := ⟨by decide, by decide⟩
  exact ⟨hwf, by decide +kernel, preview_idempotent hwf Rules.standard⟩

end Table
end TablePlanner
