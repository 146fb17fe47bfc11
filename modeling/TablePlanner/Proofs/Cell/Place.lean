import Mathlib.Data.Prod.Lex
import Mathlib.Data.String.Basic
import TablePlanner.Cell.Order
import TablePlanner.Proofs.Numeric.Binary64

/-! Cells compare by their places in a linear order: kinds first, numbers by exact values, all else
by text. The exception is a float beside an integer beyond `2 ^ 53`, for there the integer is
rounded before it is compared. -/
namespace TablePlanner
open Json

namespace Json.Number

def exactUnits : Number → Int
  | integer n => n * Binary64.one
  | float x => x.signedUnits

/-- Two numbers of which neither is rounded before they are compared. -/
def Comparable : Number → Number → Prop
  | integer n, float _ | float _, integer n => n.natAbs ≤ Binary64.greatestExact
  | _, _ => True

theorem order_eq_compare {x y : Number} (h : x.Comparable y) :
    x.order y = compare x.exactUnits y.exactUnits := by
  have hone : (0 : Int) < Binary64.one := Int.natCast_pos.2 Binary64.one_pos
  cases x with
  | integer m =>
    cases y with
    | integer n =>
      simp only [order, exactUnits]
      rcases lt_trichotomy m n with hlt | rfl | hgt
      · have hunits := Int.mul_lt_mul_of_pos_right hlt hone
        rw [compare_lt_iff_lt.2 hlt, compare_lt_iff_lt.2 hunits]
      · rw [compare_eq_iff_eq.2 rfl, compare_eq_iff_eq.2 rfl]
      · have hunits := Int.mul_lt_mul_of_pos_right hgt hone
        rw [compare_gt_iff_gt.2 hgt, compare_gt_iff_gt.2 hunits]
    | float y =>
      simp only [order, binary64, Binary64.order, exactUnits, Binary64.signedUnits_ofInt h]
  | float x =>
    cases y with
    | integer n =>
      simp only [order, binary64, Binary64.order, exactUnits, Binary64.signedUnits_ofInt h]
    | float y => rfl

end Json.Number

namespace Cell

abbrev Place := Nat ×ₗ Int ×ₗ String

def place : Value → Place
  | .null => toLex (0, toLex (0, ""))
  | .bool b => toLex (1, toLex (b.toNat, ""))
  | .number n => toLex (2, toLex (n.exactUnits, ""))
  | .string s => toLex (3, toLex (0, s))
  | .array vs => toLex (4, toLex (0, (Value.array vs).render))
  | .object ms => toLex (5, toLex (0, (Value.object ms).render))

def Comparable : Value → Value → Prop
  | .number x, .number y => x.Comparable y
  | _, _ => True

theorem compare_toLex {K L : Type} [LinearOrder K] [LinearOrder L] (j k : K) (x y : L) :
    compare (toLex (j, x)) (toLex (k, y)) = (compare j k).then (compare x y) := by
  simp [Prod.Lex.compare_def, compareLex, compareOn]

theorem sortOrder_eq (descending : Bool) (a b : Value) :
    sortOrder descending a b =
      (compare a.isNull b.isNull).then (if descending then order b a else order a b) := by
  cases hna : a.isNull with
  | false => cases hnb : b.isNull <;> simp [sortOrder, hna, hnb, compare]
  | true =>
    cases a with
    | null =>
      cases b with
      | null => cases descending <;> rfl
      | _ => rfl
    | _ => cases hna

theorem order_eq_compare {a b : Value} (h : Comparable a b) :
    order a b = compare (place a) (place b) := by
  cases a with
  | null => cases b <;> rfl
  | bool a =>
    cases b with
    | bool b => cases a <;> cases b <;> rfl
    | _ => rfl
  | number x =>
    cases b with
    | number y =>
      rw [place, place, compare_toLex, compare_toLex]
      simp [order, Number.order_eq_compare h]
    | _ => rfl
  | string s =>
    cases b with
    | string t =>
      rw [place, place, compare_toLex, compare_toLex]
      simp [order]
    | _ => rfl
  | array as =>
    cases b with
    | array bs =>
      rw [place, place, compare_toLex, compare_toLex]
      simp [order]
    | _ => rfl
  | object as =>
    cases b with
    | object bs =>
      rw [place, place, compare_toLex, compare_toLex]
      simp [order]
    | _ => rfl

theorem order_self (a : Value) : order a a = .eq := by
  cases a with
  | number x => cases x <;> simp [order, Number.order, Binary64.order]
  | _ => simp [order, rank]

theorem order_swap (a b : Value) : (order a b).swap = order b a := by
  have hkinds : ∀ j k : Nat, (compare j k).swap = compare k j := fun _ _ =>
    Std.OrientedOrd.eq_swap.symm
  cases a with
  | null => cases b <;> exact hkinds _ _
  | bool _ => cases b <;> exact Std.OrientedOrd.eq_swap.symm
  | number x =>
    cases b with
    | number y => cases x <;> cases y <;> exact Std.OrientedOrd.eq_swap.symm
    | _ => exact hkinds _ _
  | string _ => cases b <;> exact Std.OrientedOrd.eq_swap.symm
  | array _ => cases b <;> exact Std.OrientedOrd.eq_swap.symm
  | object _ => cases b <;> exact Std.OrientedOrd.eq_swap.symm

theorem order_eq_comm {a b : Value} : order a b = .eq ↔ order b a = .eq := by
  rw [← order_swap a b, Ordering.swap_eq_eq]

theorem isNull_eq_of_order_eq {a b : Value} (h : order a b = .eq) : a.isNull = b.isNull := by
  cases a with
  | null =>
    cases b with
    | null => rfl
    | _ => cases h
  | _ =>
    cases b with
    | null => cases h
    | _ => rfl

theorem sortOrder_swap (descending : Bool) (a b : Value) :
    (sortOrder descending a b).swap = sortOrder descending b a := by
  rw [sortOrder_eq, sortOrder_eq, Ordering.swap_then]
  congr 1
  · exact Std.OrientedOrd.eq_swap.symm
  · cases descending <;> exact order_swap _ _

/-- The cells of a column that has no float beside an integer beyond `2 ^ 53`. -/
def Unmixed (cells : List Value) : Prop :=
  ∀ x n, .number (.float x) ∈ cells → .number (.integer n) ∈ cells →
    n.natAbs ≤ Binary64.greatestExact

section
variable {cells : List Value} {a b : Value}

theorem Unmixed.comparable (h : Unmixed cells) (ha : a ∈ cells) (hb : b ∈ cells) :
    Comparable a b := by
  cases a with
  | number x =>
    cases b with
    | number y =>
      cases x with
      | integer m =>
        cases y with
        | integer n => trivial
        | float y => exact h y m hb ha
      | float x =>
        cases y with
        | integer n => exact h x n ha hb
        | float y => trivial
    | _ => trivial
  | _ => trivial

theorem Unmixed.order_eq (h : Unmixed cells) (ha : a ∈ cells) (hb : b ∈ cells) :
    order a b = compare (place a) (place b) :=
  order_eq_compare (h.comparable ha hb)

/-- In either direction the cells are sorted by levels of a linear order. -/
theorem Unmixed.exists_level (h : Unmixed cells) (descending : Bool) :
    ∃ (L : Type) (_ : LinearOrder L) (level : Value → L), ∀ a ∈ cells, ∀ b ∈ cells,
      sortOrder descending a b = compare (level a) (level b) := by
  cases descending with
  | false =>
    refine ⟨Bool ×ₗ Place, inferInstance, fun v => toLex (v.isNull, place v), ?_⟩
    intro a ha b hb
    rw [sortOrder_eq, compare_toLex, ← h.order_eq ha hb]
    rfl
  | true =>
    refine ⟨Bool ×ₗ Placeᵒᵈ, inferInstance,
      fun v => toLex (v.isNull, OrderDual.toDual (place v)), ?_⟩
    intro a ha b hb
    have hdual : compare (OrderDual.toDual (place a)) (OrderDual.toDual (place b)) =
        compare (place b) (place a) := rfl
    rw [sortOrder_eq, compare_toLex, hdual, ← h.order_eq hb ha]
    rfl

end
end Cell
end TablePlanner
