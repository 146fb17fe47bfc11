import TablePlanner.Proofs.Json.NumberText
import TablePlanner.Proofs.Text.Rows
import TablePlanner.Table.Catalog

/-! Names and sample texts are written as they are, so the text has one row of four cells for each
column exactly if none of them has a line break or a bar that is not taken by a backslash. -/
namespace TablePlanner
open Json Json.Value

namespace Markdown

/-- Whether a text has no line break, its bars are all counted, and it takes nothing behind it. -/
structure Plain (xs : List Char) : Prop where
  breaks : xs.countP isBreak = 0
  closed : takes false xs = false
  bars : bars xs = xs.count '|'

theorem Plain.append {xs ys : List Char} (hx : Plain xs) (hy : Plain ys) : Plain (xs ++ ys) where
  breaks := by rw [List.countP_append, hx.breaks, hy.breaks]
  closed := by rw [takes_append, hx.closed, hy.closed]
  bars := by
    rw [List.count_append, ← hx.bars, ← hy.bars, Markdown.bars, barsFrom_append, hx.closed]
    rfl

theorem Plain.flatMap {f : α → List Char} {xs : List α} (h : ∀ x ∈ xs, Plain (f x)) :
    Plain (xs.flatMap f) := by
  induction xs with
  | nil => exact ⟨rfl, rfl, rfl⟩
  | cons x xs ih =>
    obtain ⟨hx, hxs⟩ := List.forall_mem_cons.1 h
    exact hx.append (ih hxs)

theorem plain_singleton {c : Char} (hbreak : isBreak c = false) (hc : c ≠ '\\') : Plain [c] where
  breaks := by simp [hbreak]
  closed := by simp [takes, hc]
  bars := by
    by_cases hbar : c = '|'
    · rw [hbar]
      rfl
    · simp [Markdown.bars, barsFrom, hbar]

theorem Plain.cons {c : Char} {xs : List Char} (hbreak : isBreak c = false) (hc : c ≠ '\\')
    (h : Plain xs) : Plain (c :: xs) :=
  (plain_singleton hbreak hc).append h

theorem plain_of_all {xs : List Char} (h : xs.all fun c => !isBreak c && c != '\\') : Plain xs := by
  rw [← List.flatMap_singleton' xs]
  refine Plain.flatMap fun c hc => ?_
  obtain ⟨hbreak, hslash⟩ := Bool.and_eq_true_iff.1 (List.all_eq_true.1 h c hc)
  exact plain_singleton (Bool.not_eq_true' _ ▸ hbreak) (bne_iff_ne.1 hslash)

theorem plain_control : ∀ n < 0x20, (escape (.ofNat n)).countP isBreak = 0 ∧
    takes false (escape (.ofNat n)) = false ∧
    bars (escape (.ofNat n)) = (escape (.ofNat n)).count '|' := by
  decide

theorem plain_escape (c : Char) : Plain (escape c) := by
  by_cases hcontrol : c.toNat < 0x20
  · obtain ⟨hbreaks, hclosed, hbars⟩ := plain_control c.toNat hcontrol
    rw [Char.ofNat_toNat] at hbreaks hclosed hbars
    exact ⟨hbreaks, hclosed, hbars⟩
  · unfold escape
    split
    · exact ⟨rfl, rfl, rfl⟩
    · split
      · exact ⟨rfl, rfl, rfl⟩
      · next hslash =>
        refine plain_singleton ?_ hslash
        rw [isBreak, Bool.or_eq_false_iff, beq_eq_false_iff_ne, beq_eq_false_iff_ne]
        constructor <;> rintro rfl <;> exact hcontrol (by decide)

theorem plain_quoted (s : String) : Plain (quoted s) := by
  have hquote : Plain ['"'] := plain_singleton rfl (by decide)
  exact (hquote.append (Plain.flatMap fun c _ => plain_escape c)).append hquote

theorem plain_number (n : Number) : Plain n.text := by
  refine plain_of_all (List.all_eq_true.2 fun c hc => ?_)
  have hchar := Number.isNumberChar_of_mem_text n c hc
  rw [isBreak, Bool.and_eq_true_iff, Bool.not_eq_true', Bool.or_eq_false_iff, beq_eq_false_iff_ne,
    beq_eq_false_iff_ne, bne_iff_ne]
  refine ⟨⟨?_, ?_⟩, ?_⟩ <;> rintro rfl <;> exact absurd hchar (by decide)

mutual

theorem plain_text : ∀ v : Value, Plain v.text
  | .null => plain_of_all rfl
  | .bool true => plain_of_all rfl
  | .bool false => plain_of_all rfl
  | .number n => plain_number n
  | .string s => plain_quoted s
  | .array [] => plain_of_all rfl
  | .array (v :: vs) => ((plain_text v).cons rfl (by decide)).append (plain_itemsText vs)
  | .object [] => plain_of_all rfl
  | .object ((k, v) :: ms) =>
    (((plain_quoted k).cons rfl (by decide)).append ((plain_text v).cons rfl (by decide))).append
      (plain_membersText ms)

theorem plain_itemsText : ∀ vs : List Value, Plain (itemsText vs)
  | [] => plain_of_all rfl
  | v :: vs => ((plain_text v).cons rfl (by decide)).append (plain_itemsText vs)

theorem plain_membersText : ∀ ms : List (String × Value), Plain (membersText ms)
  | [] => plain_of_all rfl
  | (k, v) :: ms =>
    (((plain_quoted k).cons rfl (by decide)).append ((plain_text v).cons rfl (by decide))).append
      (plain_membersText ms)

end

/-- Whether a text stays within a line and a cell. -/
structure Fits (text : List Char) : Prop where
  breaks : ∀ c ∈ text, isBreak c = false
  bars : bars text = 0

theorem fits_iff {text : List Char} : Fits text ↔ text.countP isBreak = 0 ∧ bars text = 0 := by
  rw [List.countP_eq_zero]
  simp only [Bool.not_eq_true]
  exact ⟨fun h => ⟨h.breaks, h.bars⟩, fun h => ⟨h.1, h.2⟩⟩

end Markdown

namespace CatalogEntry
open Markdown

def header (e : CatalogEntry) : String :=
  "## Table: \x60" ++ e.name ++ "\x60\n\n**Rows:** " ++ toString e.rowCount ++ "\n\n" ++
    "| Column | Type | Nullable | Sample Values |\n" ++
    "|--------|------|----------|---------------|\n"

def rows (e : CatalogEntry) : List (List Char) :=
  lines (e.markdown.toList.drop e.header.toList.length)

/-- Whether there is a line for each column, with four cells between five bars. -/
structure Shaped (e : CatalogEntry) : Prop where
  count : e.rows.length = e.columns.length
  bars : ∀ line ∈ e.rows, Markdown.bars line = 5

/-- Whether a line has four cells, the first one with the name of a column. -/
def Describes (line : List Char) (column : String) : Prop :=
  ∃ type nullable samples : List Char,
    cells line =
      [[], [' ', '\x60'] ++ column.toList ++ ['\x60', ' '], type, nullable, samples, []]

/-- Whether a sample fits: a text as it is, any other value without a bar in its JSON text. -/
def FitsSample : Value → Prop
  | .string s => Fits s.toList
  | v => '|' ∉ v.text

theorem fits_sampleText_iff (v : Value) : Fits (sampleText v).toList ↔ FitsSample v := by
  have hother (hv : (sampleText v).toList = v.text) :
      Fits (sampleText v).toList ↔ '|' ∉ v.text := by
    rw [hv, ← List.count_eq_zero, ← (plain_text v).bars]
    exact ⟨Fits.bars, fun h => fits_iff.2 ⟨(plain_text v).breaks, h⟩⟩
  cases v with
  | string s =>
    have htext : (sampleText (.string s)).toList = ['"'] ++ s.toList ++ ['"'] := by
      simp [sampleText]
    have hbars : bars (['"'] ++ s.toList ++ ['"']) = bars s.toList :=
      bars_between (by decide) rfl (by decide)
    rw [htext]
    refine ⟨fun h => ⟨fun c hc => h.breaks c (by simp [hc]), hbars ▸ h.bars⟩,
      fun h => ⟨fun c hc => ?_, hbars.trans h.bars⟩⟩
    rw [List.mem_append, List.mem_append, List.mem_singleton] at hc
    obtain (rfl | hc) | rfl := hc
    · rfl
    · exact h.breaks c hc
    · rfl
  | null => exact hother rfl
  | bool b => exact hother (by simp [sampleText, Value.render])
  | number n => exact hother (by simp [sampleText, Value.render])
  | array vs => exact hother (by simp [sampleText, Value.render])
  | object ms => exact hother (by simp [sampleText, Value.render])

end CatalogEntry

namespace ColumnEntry
open Markdown CatalogEntry

def shown (c : ColumnEntry) : List Value := c.samples.take 3

/-- Whether the name and the shown samples of a column stay within a line and a cell. -/
structure FitsRow (c : ColumnEntry) : Prop where
  name : Fits c.name.toList
  samples : ∀ v ∈ c.shown, FitsSample v

def sampleTexts (c : ColumnEntry) : List (List Char) := c.shown.map fun v => (sampleText v).toList

def nameField (c : ColumnEntry) : List Char := [' ', '\x60'] ++ c.name.toList ++ ['\x60', ' ']

def typeField (c : ColumnEntry) : List Char := [' '] ++ c.type.name.toList ++ [' ']

def nullableField (c : ColumnEntry) : List Char :=
  [' '] ++ (if c.isNullable then ['✓'] else []) ++ [' ']

def samplesField (c : ColumnEntry) : List Char :=
  [' '] ++ [',', ' '].intercalate c.sampleTexts ++ [' ']

def fields (c : ColumnEntry) : List (List Char) :=
  [c.nameField, c.typeField, c.nullableField, c.samplesField]

section
variable (c : ColumnEntry)

theorem toList_columnLine : (columnLine c).toList = row c.fields ++ ['\n'] := by
  have hsamples : (", ".intercalate ((c.samples.take 3).map sampleText)).toList =
      [',', ' '].intercalate c.sampleTexts := by
    rw [String.toList_intercalate, List.map_map]
    rfl
  have hnullable : (if c.isNullable then "✓" else "").toList =
      if c.isNullable then ['✓'] else [] := by
    split <;> rfl
  simp only [columnLine, String.toList_append, hsamples, hnullable]
  simp [row, fields, nameField, typeField, nullableField, samplesField]

theorem closed_fields : ∀ field ∈ c.fields, takes false field = false := by
  -- Every field ends in a blank, so none of them takes the bar behind it.
  have hname : c.nameField = [' ', '\x60'] ++ c.name.toList ++ ['\x60'] ++ [' '] := by
    simp [nameField]
  simp only [fields, List.forall_mem_cons, List.not_mem_nil, false_imp_iff, implies_true, and_true]
  exact ⟨hname ▸ takes_concat (by decide), takes_concat (by decide), takes_concat (by decide),
    takes_concat (by decide)⟩

theorem bars_row_fields :
    bars (row c.fields) = 5 + bars c.name.toList + (c.sampleTexts.map bars).sum := by
  have hname : bars c.nameField = bars c.name.toList :=
    bars_between (by decide) rfl (by decide)
  have htype : bars c.typeField = 0 := by
    rw [typeField]
    cases c.type <;> decide
  have hnullable : bars c.nullableField = 0 := by
    rw [nullableField]
    split <;> decide
  have hsamples : bars c.samplesField = (c.sampleTexts.map bars).sum := by
    have hjoin : bars ([',', ' '].intercalate c.sampleTexts) = (c.sampleTexts.map bars).sum :=
      bars_intercalate (by decide) (by decide)
    exact (bars_between (by decide) rfl (by decide)).trans hjoin
  rw [bars_row c.closed_fields]
  simp only [fields, List.map_cons, List.map_nil, List.sum_cons, List.sum_nil, List.length_cons,
    List.length_nil, hname, htype, hnullable, hsamples]
  omega

theorem breaks_row_fields :
    (row c.fields).countP isBreak =
      c.name.toList.countP isBreak + (c.sampleTexts.map (·.countP isBreak)).sum := by
  have htype : c.type.name.toList.countP isBreak = 0 := by
    cases c.type <;> decide
  have hnullable : (if c.isNullable then ['✓'] else []).countP isBreak = 0 := by
    split <;> decide
  have hsamples : ([',', ' '].intercalate c.sampleTexts).countP isBreak =
      (c.sampleTexts.map (·.countP isBreak)).sum := countP_intercalate (by decide)
  simp [row, fields, nameField, typeField, nullableField, samplesField, htype, hnullable, hsamples,
    isBreak]

/-- A column fits exactly if its row has no break, and no bar but those around the four cells. -/
theorem fitsRow_iff : c.FitsRow ↔ (row c.fields).countP isBreak = 0 ∧ bars (row c.fields) = 5 := by
  have hsums : ((row c.fields).countP isBreak = 0 ∧ bars (row c.fields) = 5) ↔
      (c.name.toList.countP isBreak = 0 ∧ bars c.name.toList = 0) ∧
        (c.sampleTexts.map (·.countP isBreak)).sum = 0 ∧ (c.sampleTexts.map bars).sum = 0 := by
    rw [breaks_row_fields, bars_row_fields]
    omega
  have hsamples : ((c.sampleTexts.map (·.countP isBreak)).sum = 0 ∧
      (c.sampleTexts.map bars).sum = 0) ↔ ∀ v ∈ c.shown, FitsSample v := by
    rw [List.sum_eq_zero_iff, List.sum_eq_zero_iff, List.forall_mem_map, List.forall_mem_map,
      sampleTexts, List.forall_mem_map, List.forall_mem_map, ← forall₂_and]
    refine forall₂_congr fun v _ => ?_
    rw [← fits_sampleText_iff, fits_iff]
  rw [hsums, hsamples, ← fits_iff]
  exact ⟨fun h => ⟨h.name, h.samples⟩, fun h => ⟨h.1, h.2⟩⟩

theorem FitsRow.cells_eq (h : c.FitsRow) : cells (row c.fields) = [] :: c.fields ++ [[]] := by
  have hbars := bars_row c.closed_fields
  rw [(c.fitsRow_iff.1 h).2] at hbars
  have hsum : (c.fields.map bars).sum = 0 := by
    have hlength : c.fields.length = 4 := rfl
    omega
  rw [List.sum_eq_zero_iff, List.forall_mem_map] at hsum
  exact cells_row c.closed_fields hsum

theorem FitsRow.describes (h : c.FitsRow) : Describes (row c.fields) c.name :=
  ⟨c.typeField, c.nullableField, c.samplesField, FitsRow.cells_eq c h⟩

end
end ColumnEntry

namespace CatalogEntry
open Markdown

theorem markdown_eq (e : CatalogEntry) :
    e.markdown = e.header ++ String.join (e.columns.map columnLine) := rfl

theorem rows_eq (e : CatalogEntry) :
    e.rows = lines ((e.columns.map fun c => row c.fields).flatMap (· ++ ['\n'])) := by
  rw [rows, markdown_eq, String.toList_append, List.drop_left, String.toList_join, List.flatMap_map,
    List.flatMap_map]
  simp only [ColumnEntry.toList_columnLine]

theorem length_rows (e : CatalogEntry) :
    e.rows.length =
      e.columns.length + (e.columns.map fun c => (row c.fields).countP isBreak).sum := by
  rw [rows_eq, length_lines_ended, List.length_map, List.map_map]
  rfl

theorem rows_eq_map {e : CatalogEntry} (h : ∀ c ∈ e.columns, (row c.fields).countP isBreak = 0) :
    e.rows = e.columns.map fun c => row c.fields := by
  rw [rows_eq]
  refine lines_ended (List.forall_mem_map.2 fun c hc x hx => ?_)
  exact Bool.eq_false_iff.2 (List.countP_eq_zero.1 (h c hc) x hx)

theorem shaped_iff (e : CatalogEntry) : e.Shaped ↔ ∀ c ∈ e.columns, c.FitsRow := by
  constructor
  · intro h c hc
    have hbreaks : ∀ c ∈ e.columns, (row c.fields).countP isBreak = 0 := by
      have hlength := e.length_rows
      rw [h.count, left_eq_add, List.sum_eq_zero_iff, List.forall_mem_map] at hlength
      exact hlength
    have hbars := h.bars
    rw [rows_eq_map hbreaks, List.forall_mem_map] at hbars
    exact c.fitsRow_iff.2 ⟨hbreaks c hc, hbars c hc⟩
  · intro h
    have hrows := rows_eq_map fun c hc => (c.fitsRow_iff.1 (h c hc)).1
    refine ⟨by rw [hrows, List.length_map], ?_⟩
    rw [hrows, List.forall_mem_map]
    exact fun c hc => (c.fitsRow_iff.1 (h c hc)).2

theorem ofTable_names (name : String) (t : Table) :
    (ofTable name t).columns.map (·.name) = t.columns := by
  rw [ofTable, List.map_map]
  exact List.zipIdx_map_fst 0 t.columns

/-- The markdown of a stored table has a line of four cells for each column exactly if no name and
no shown sample has a line break or a bar of its own. Then the lines describe the columns, in their
order. -/
theorem ofTable_shaped_iff (name : String) (t : Table) :
    ((ofTable name t).Shaped ↔ ∀ c ∈ (ofTable name t).columns, c.FitsRow) ∧
      ((ofTable name t).Shaped → List.Forall₂ Describes (ofTable name t).rows t.columns) := by
  refine ⟨shaped_iff _, fun h => ?_⟩
  have hfits := (shaped_iff _).1 h
  rw [rows_eq_map fun c hc => (c.fitsRow_iff.1 (hfits c hc)).1, ← ofTable_names name t,
    List.forall₂_map_left_iff, List.forall₂_map_right_iff, List.forall₂_same]
  exact fun c hc => (hfits c hc).describes

example : (ofTable "t" ⟨["a\\|b"], [[.null], [.string "\\"]]⟩).rows.map cells =
    [[[], " \x60a\\|b\x60 ".toList, " string ".toList, " ✓ ".toList, " null, \"\\\" ".toList,
      []]] := by
  rw [rows_eq]
  decide

/-- A bar in a name splits a cell, and a line break in a sample splits a row. -/
theorem barred_and_broken_not_shaped :
    (⟨["a|b"], []⟩ : Table).WellFormed ∧ (ofTable "t" ⟨["a|b"], []⟩).rows.map bars = [6] ∧
      ¬ (ofTable "t" ⟨["a|b"], []⟩).Shaped ∧
      (ofTable "t" ⟨["a"], [[.string "x\ny"]]⟩).rows.length = 2 ∧
      ¬ (ofTable "t" ⟨["a"], [[.string "x\ny"]]⟩).Shaped := by
  have hbars : (ofTable "t" ⟨["a|b"], []⟩).rows.map bars = [6] := by
    rw [rows_eq]
    decide
  have hlength : (ofTable "t" ⟨["a"], [[.string "x\ny"]]⟩).rows.length = 2 := by
    rw [rows_eq]
    decide
  refine ⟨by decide, hbars, fun h => ?_, hlength, fun h => ?_⟩
  · have hfive : ∀ n ∈ [6], n = 5 := by
      rw [← hbars, List.forall_mem_map]
      exact h.bars
    exact absurd (hfive 6 (by simp)) (by decide)
  · exact absurd (hlength.symm.trans h.count) (by decide)

end CatalogEntry
end TablePlanner
