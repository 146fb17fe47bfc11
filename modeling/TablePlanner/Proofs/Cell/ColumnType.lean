import Mathlib.Order.Lattice
import TablePlanner.Cell.ColumnType

/-! Types are ordered by what they cover: floats cover integers, text covers everything. The
inferred type is the least that covers the type of each cell, so it is settled by which cells there
are. -/
namespace TablePlanner.ColumnType
open Json
variable {cells other : List Value} {v : Value} {a b k : ColumnType} {inferred : Option ColumnType}

/-- The cells that are not null. -/
def present (cells : List Value) : List Value := cells.filter (!·.isNull)

/-- A cell is of a type by itself. -/
def Fits : ColumnType → Value → Prop
  | integer, v => ∃ n, v = .number (.integer n)
  | float, v => ∃ x, v = .number (.float x)
  | boolean, v => ∃ b, v = .bool b
  | date, v => ∃ s d, v = .string s ∧ Date.ofText? s = some d
  | string, v => (∃ s, v = .string s ∧ Date.ofText? s = none) ∨ (∃ items, v = .array items) ∨
      ∃ members, v = .object members
  | unknown, _ => False

theorem mem_present : v ∈ present cells ↔ v ∈ cells ∧ v ≠ .null := by
  rw [present, List.mem_filter]
  cases v <;> simp [Value.isNull]

theorem present_eq_nil_iff : present cells = [] ↔ ∀ v ∈ cells, v = .null := by
  simp only [List.eq_nil_iff_forall_not_mem, mem_present, not_and, not_not]

theorem ofCell?_eq_none_iff : ofCell? v = none ↔ v = .null := by
  cases v with
  | number n => cases n <;> simp [ofCell?]
  | _ => simp [ofCell?]

theorem ofCell?_eq_some_iff : ofCell? v = some k ↔ Fits k v := by
  cases v with
  | number n => cases n <;> cases k <;> simp [ofCell?, Fits]
  | string s => cases hdate : Date.ofText? s <;> cases k <;> simp [ofCell?, Fits, hdate]
  | _ => cases k <;> simp [ofCell?, Fits]

theorem join_self (a : ColumnType) : join a a = a := if_pos rfl

theorem join_comm (a b : ColumnType) : join a b = join b a := by
  cases a <;> cases b <;> rfl

theorem join_assoc (a b c : ColumnType) : join (join a b) c = join a (join b c) := by
  cases a <;> cases b <;> cases c <;> rfl

instance : Max ColumnType := ⟨join⟩

instance : SemilatticeSup ColumnType := SemilatticeSup.mk' join_comm join_assoc join_self

theorem join_le_iff : join a k ≤ b ↔ a ≤ b ∧ k ≤ b := sup_le_iff

instance (a b : ColumnType) : Decidable (a ≤ b) :=
  decidable_of_iff (join a b = b) (sup_eq_right (a := a) (b := b))

theorem le_unknown_iff : a ≤ unknown ↔ a = unknown := by
  cases a <;> decide

theorem le_integer_iff : a ≤ integer ↔ a = integer := by
  cases a <;> decide

theorem le_boolean_iff : a ≤ boolean ↔ a = boolean := by
  cases a <;> decide

theorem le_date_iff : a ≤ date ↔ a = date := by
  cases a <;> decide

theorem le_float_iff : a ≤ float ↔ a = integer ∨ a = float := by
  cases a <;> decide

theorem eq_float_iff : a = float ↔ a ≤ float ∧ ¬ a ≤ integer := by
  cases a <;> decide

theorem eq_string_iff (h : a ≠ unknown) :
    a = string ↔ ¬ a ≤ float ∧ ¬ a ≤ boolean ∧ ¬ a ≤ date := by
  revert h
  cases a <;> decide

theorem joinCell_le_iff : (∀ a ∈ joinCell inferred v, a ≤ b) ↔
    (∀ a ∈ inferred, a ≤ b) ∧ ∀ a ∈ ofCell? v, a ≤ b := by
  unfold joinCell
  cases ofCell? v <;> cases inferred <;> simp [join_le_iff]

theorem joinCell_eq_none_iff : joinCell inferred v = none ↔ inferred = none ∧ v = .null := by
  rw [← ofCell?_eq_none_iff]
  unfold joinCell
  cases ofCell? v <;> cases inferred <;> simp

theorem foldl_joinCell_le_iff : (∀ a ∈ cells.foldl joinCell inferred, a ≤ b) ↔
    (∀ a ∈ inferred, a ≤ b) ∧ ∀ v ∈ cells, ∀ a ∈ ofCell? v, a ≤ b := by
  induction cells generalizing inferred with
  | nil => simp
  | cons v cells ih => rw [List.foldl_cons, ih, joinCell_le_iff, List.forall_mem_cons, and_assoc]

theorem foldl_joinCell_eq_none_iff : cells.foldl joinCell inferred = none ↔
    inferred = none ∧ ∀ v ∈ cells, v = .null := by
  induction cells generalizing inferred with
  | nil => simp
  | cons v cells ih =>
    rw [List.foldl_cons, ih, joinCell_eq_none_iff, List.forall_mem_cons, and_assoc]

theorem infer_of_present_eq_nil (h : present cells = []) : infer cells = unknown := by
  rw [infer, foldl_joinCell_eq_none_iff.2 ⟨rfl, present_eq_nil_iff.1 h⟩]
  rfl

/-- The inferred type is the least that covers the type of each cell. -/
theorem infer_le_iff (h : present cells ≠ []) :
    infer cells ≤ b ↔ ∀ v ∈ present cells, ∃ k, k ≤ b ∧ Fits k v := by
  have hsome : cells.foldl joinCell none ≠ none := fun hnone =>
    h (present_eq_nil_iff.2 (foldl_joinCell_eq_none_iff.1 hnone).2)
  obtain ⟨least, hleast⟩ := Option.ne_none_iff_exists'.1 hsome
  have hle : infer cells ≤ b ↔ ∀ a ∈ cells.foldl joinCell none, a ≤ b := by
    simp [infer, hleast]
  rw [hle, foldl_joinCell_le_iff]
  constructor
  · rintro ⟨-, hcells⟩ v hv
    obtain ⟨hmem, hnull⟩ := mem_present.1 hv
    obtain ⟨k, hk⟩ := Option.ne_none_iff_exists'.1 (mt ofCell?_eq_none_iff.1 hnull)
    exact ⟨k, hcells v hmem k hk, ofCell?_eq_some_iff.1 hk⟩
  · intro hcells
    refine ⟨by simp, fun v hmem a ha => ?_⟩
    have hnull : v ≠ .null := fun hnull => by
      rw [ofCell?_eq_none_iff.2 hnull] at ha
      cases ha
    obtain ⟨k, hk, hfits⟩ := hcells v (mem_present.2 ⟨hmem, hnull⟩)
    rwa [Option.some.inj (ha.symm.trans (ofCell?_eq_some_iff.2 hfits))]

theorem infer_eq_unknown_iff : infer cells = unknown ↔ present cells = [] := by
  refine ⟨fun h => by_contra fun hne => ?_, infer_of_present_eq_nil⟩
  obtain ⟨v, hv⟩ := List.exists_mem_of_ne_nil _ hne
  obtain ⟨k, hk, hfits⟩ := (infer_le_iff hne).1 h.le v hv
  rw [le_unknown_iff.1 hk] at hfits
  exact hfits

theorem infer_eq_iff_forall_fits (hk : k ≠ unknown) (hleast : ∀ {a}, a ≤ k ↔ a = k) :
    infer cells = k ↔ present cells ≠ [] ∧ ∀ v ∈ present cells, Fits k v := by
  by_cases h : present cells = []
  · rw [infer_of_present_eq_nil h]
    exact iff_of_false hk.symm fun hcells => hcells.1 h
  · rw [← hleast, infer_le_iff h, and_iff_right h]
    simp only [hleast, exists_eq_left]

theorem exists_fits_le_float_iff :
    (∃ k, k ≤ float ∧ Fits k v) ↔ Fits integer v ∨ Fits float v := by
  simp only [le_float_iff, or_and_right, exists_or, exists_eq_left]

theorem infer_eq_float_iff : infer cells = float ↔
    (∀ v ∈ present cells, Fits integer v ∨ Fits float v) ∧ ∃ v ∈ present cells, Fits float v := by
  by_cases h : present cells = []
  · rw [infer_of_present_eq_nil h]
    exact iff_of_false (by decide) (by simp [h])
  · rw [eq_float_iff, infer_le_iff h, infer_le_iff h]
    simp only [exists_fits_le_float_iff, le_integer_iff, exists_eq_left]
    refine and_congr_right fun hnumbers => ?_
    rw [not_forall₂]
    refine exists_congr fun v => ⟨fun ⟨hv, hfits⟩ => ⟨hv, (hnumbers v hv).resolve_left hfits⟩, ?_⟩
    rintro ⟨hv, ⟨x, rfl⟩⟩
    exact ⟨hv, fun ⟨n, hn⟩ => by cases hn⟩

theorem infer_eq_string_iff : infer cells = string ↔ present cells ≠ [] ∧
    (¬ ∀ v ∈ present cells, Fits integer v ∨ Fits float v) ∧
    (¬ ∀ v ∈ present cells, Fits boolean v) ∧ ¬ ∀ v ∈ present cells, Fits date v := by
  by_cases h : present cells = []
  · rw [infer_of_present_eq_nil h]
    exact iff_of_false (by decide) fun hcells => hcells.1 h
  · rw [eq_string_iff (mt infer_eq_unknown_iff.1 h), infer_le_iff h, infer_le_iff h,
      infer_le_iff h, and_iff_right h]
    simp only [exists_fits_le_float_iff, le_boolean_iff, le_date_iff, exists_eq_left]

theorem infer_congr (h : ∀ v, v ≠ .null → (v ∈ other ↔ v ∈ cells)) : infer other = infer cells := by
  have hsame : ∀ v, v ∈ present other ↔ v ∈ present cells := by
    intro v
    rw [mem_present, mem_present, and_comm, and_comm (b := v ≠ .null)]
    exact and_congr_right (h v)
  by_cases hnil : present cells = []
  · have hother : present other = [] :=
      List.eq_nil_iff_forall_not_mem.2 fun v hv => List.not_mem_nil (hnil ▸ (hsame v).1 hv)
    rw [infer_of_present_eq_nil hnil, infer_of_present_eq_nil hother]
  · have hother : present other ≠ [] := by
      obtain ⟨v, hv⟩ := List.exists_mem_of_ne_nil _ hnil
      exact List.ne_nil_of_mem ((hsame v).2 hv)
    refine eq_of_forall_ge_iff fun b => ?_
    rw [infer_le_iff hnil, infer_le_iff hother]
    exact forall_congr' fun v => imp_congr_left (hsame v)

/-- Which type is inferred of which cells. A list with the same cells other than nulls, in another
order, repeated or with other nulls between them, has the same type. -/
theorem infer_settled_by_cells (cells : List Value) :
    (infer cells = unknown ↔ present cells = []) ∧
    (infer cells = integer ↔ present cells ≠ [] ∧ ∀ v ∈ present cells, Fits integer v) ∧
    (infer cells = float ↔ (∀ v ∈ present cells, Fits integer v ∨ Fits float v) ∧
      ∃ v ∈ present cells, Fits float v) ∧
    (infer cells = boolean ↔ present cells ≠ [] ∧ ∀ v ∈ present cells, Fits boolean v) ∧
    (infer cells = date ↔ present cells ≠ [] ∧ ∀ v ∈ present cells, Fits date v) ∧
    (infer cells = string ↔ present cells ≠ [] ∧
      (¬ ∀ v ∈ present cells, Fits integer v ∨ Fits float v) ∧
      (¬ ∀ v ∈ present cells, Fits boolean v) ∧ ¬ ∀ v ∈ present cells, Fits date v) ∧
    ∀ other, (∀ v, v ≠ .null → (v ∈ other ↔ v ∈ cells)) → infer other = infer cells :=
  ⟨infer_eq_unknown_iff, infer_eq_iff_forall_fits (by decide) le_integer_iff, infer_eq_float_iff,
    infer_eq_iff_forall_fits (by decide) le_boolean_iff,
    infer_eq_iff_forall_fits (by decide) le_date_iff, infer_eq_string_iff, fun _ => infer_congr⟩

theorem dates_inferred :
    infer [.string "2024-02-29", .string "2023/3/1"] = date ∧
      (∀ v : Value, v ≠ .null →
        (v ∈ [.null, .string "2023/3/1", .string "2024-02-29", .string "2023/3/1"] ↔
          v ∈ [.string "2024-02-29", .string "2023/3/1"])) ∧
      infer [.null, .string "2023/3/1", .string "2024-02-29", .string "2023/3/1"] = date := by
  obtain ⟨-, -, -, -, hdate, -, hsame⟩ :=
    infer_settled_by_cells [.string "2024-02-29", .string "2023/3/1"]
  have hdates : infer [.string "2024-02-29", .string "2023/3/1"] = date := by
    refine hdate.2 ⟨by simp [present, Value.isNull], ?_⟩
    simp only [mem_present, List.mem_cons, List.not_mem_nil, or_false]
    rintro v ⟨rfl | rfl, -⟩
    · exact ⟨_, ⟨2024, 2, 29⟩, rfl, by decide +kernel⟩
    · exact ⟨_, ⟨2023, 3, 1⟩, rfl, by decide +kernel⟩
  have hcells : ∀ v : Value, v ≠ .null →
      (v ∈ [.null, .string "2023/3/1", .string "2024-02-29", .string "2023/3/1"] ↔
        v ∈ [.string "2024-02-29", .string "2023/3/1"]) := by
    intro v hnull
    simp only [List.mem_cons, List.not_mem_nil, or_false, hnull, false_or]
    constructor
    · rintro (h | h | h)
      · exact .inr h
      · exact .inl h
      · exact .inr h
    · rintro (h | h)
      · exact .inr (.inl h)
      · exact .inl h
  exact ⟨hdates, hcells, (hsame _ hcells).trans hdates⟩

end TablePlanner.ColumnType
