import TablePlanner.Proofs.Cell.Place

namespace TablePlanner
open Json

namespace Json.Number

def rounded (x : Number) : Int := x.binary64.signedUnits

section
variable {x y z : Number}

theorem order_float_left (x : Binary64) (y : Number) :
    order (.float x) y = compare (rounded (.float x)) y.rounded := by
  cases y <;> rfl

theorem order_float_right (x : Number) (y : Binary64) :
    order x (.float y) = compare x.rounded (rounded (.float y)) := by
  cases x <;> rfl

theorem rounded_le_of_order_lt (h : x.order y = .lt) : x.rounded ≤ y.rounded := by
  cases x with
  | float x =>
    rw [order_float_left, compare_lt_iff_lt] at h
    exact h.le
  | integer m =>
    cases y with
    | float y =>
      rw [order_float_right, compare_lt_iff_lt] at h
      exact h.le
    | integer n => exact Binary64.signedUnits_ofInt_le (compare_lt_iff_lt.1 h).le

theorem rounded_eq_of_order_eq (h : x.order y = .eq) : x.rounded = y.rounded := by
  cases x with
  | float x => rwa [order_float_left, compare_eq_iff_eq] at h
  | integer m =>
    cases y with
    | float y => rwa [order_float_right, compare_eq_iff_eq] at h
    | integer n => exact congrArg (fun n => rounded (.integer n)) (compare_eq_iff_eq.1 h)

theorem order_lt_of_rounded_lt (h : x.rounded < y.rounded) : x.order y = .lt := by
  cases x with
  | float x => rwa [order_float_left, compare_lt_iff_lt]
  | integer m =>
    cases y with
    | float y => rwa [order_float_right, compare_lt_iff_lt]
    | integer n =>
      -- Rounding keeps the order, so what is less after it was less before.
      apply compare_lt_iff_lt.2
      by_contra hle
      exact absurd (Binary64.signedUnits_ofInt_le (not_lt.1 hle)) (not_le.2 h)

theorem order_lt_trans (h : x.order y = .lt) (h' : y.order z = .lt) : x.order z = .lt := by
  have hle := rounded_le_of_order_lt h
  have hle' := rounded_le_of_order_lt h'
  -- One float among the three is enough: beside it the step is strict after rounding as well.
  cases y with
  | float y =>
    rw [order_float_right, compare_lt_iff_lt] at h
    exact order_lt_of_rounded_lt (h.trans_le hle')
  | integer n =>
    cases x with
    | float x =>
      rw [order_float_left, compare_lt_iff_lt] at h
      exact order_lt_of_rounded_lt (h.trans_le hle')
    | integer m =>
      cases z with
      | float z =>
        rw [order_float_right, compare_lt_iff_lt] at h'
        exact order_lt_of_rounded_lt (hle.trans_lt h')
      | integer k =>
        have hmn : m < n := compare_lt_iff_lt.1 h
        exact compare_lt_iff_lt.2 (hmn.trans (compare_lt_iff_lt.1 h'))

end
end Json.Number

namespace Cell

section
variable {a b c : Value}

theorem order_eq_compare_rank (h : rank a ≠ rank b) : order a b = compare (rank a) (rank b) := by
  cases a with
  | null => cases b <;> rfl
  | bool _ =>
    cases b with
    | bool _ => exact absurd rfl h
    | _ => rfl
  | number _ =>
    cases b with
    | number _ => exact absurd rfl h
    | _ => rfl
  | string _ =>
    cases b with
    | string _ => exact absurd rfl h
    | _ => rfl
  | array _ =>
    cases b with
    | array _ => exact absurd rfl h
    | _ => rfl
  | object _ =>
    cases b with
    | object _ => exact absurd rfl h
    | _ => rfl

theorem rank_eq_of_order_eq (h : order a b = .eq) : rank a = rank b := by
  by_contra hne
  rw [order_eq_compare_rank hne, compare_eq_iff_eq] at h
  exact hne h

theorem rank_le_of_order_lt (h : order a b = .lt) : rank a ≤ rank b := by
  by_cases heq : rank a = rank b
  · exact heq.le
  · rw [order_eq_compare_rank heq, compare_lt_iff_lt] at h
    exact h.le

theorem exists_number_of_rank (h : rank a = 2) : ∃ x, a = .number x := by
  cases a with
  | number x => exact ⟨x, rfl⟩
  | _ => cases h

theorem comparable_of_rank (h : rank a ≠ 2) (b : Value) : Comparable a b := by
  cases a with
  | number x => exact absurd rfl h
  | _ => trivial

theorem order_lt_trans (h : order a b = .lt) (h' : order b c = .lt) : order a c = .lt := by
  have hle := rank_le_of_order_lt h
  have hle' := rank_le_of_order_lt h'
  by_cases hac : rank a = rank c
  · have hab : rank a = rank b := by omega
    by_cases hnumber : rank a = 2
    · obtain ⟨x, rfl⟩ := exists_number_of_rank hnumber
      obtain ⟨y, rfl⟩ := exists_number_of_rank (hab ▸ hnumber)
      obtain ⟨z, rfl⟩ := exists_number_of_rank (hac ▸ hnumber)
      exact Number.order_lt_trans h h'
    · rw [order_eq_compare (comparable_of_rank hnumber _), compare_lt_iff_lt] at h ⊢
      rw [order_eq_compare (comparable_of_rank (hab ▸ hnumber) _), compare_lt_iff_lt] at h'
      exact h.trans h'
  · rw [order_eq_compare_rank hac, compare_lt_iff_lt]
    omega

end

/-- No float among some cells ties with a key and with an integer among them that is not the key. -/
def Settled (cells : List Value) (key : Value) : Prop :=
  ∀ x n, .number (.float x) ∈ cells → .number (.integer n) ∈ cells →
    order key (.number (.float x)) = .eq →
    order (.number (.float x)) (.number (.integer n)) = .eq →
    order key (.number (.integer n)) = .eq

section
variable {cells : List Value} {key v w : Value}

theorem Settled.trans (h : Settled cells key) (hv : v ∈ cells) (hw : w ∈ cells)
    (hkey : order key v = .eq) (hnext : order v w = .eq) : order key w = .eq := by
  have hrank := rank_eq_of_order_eq hkey
  have hrank' := rank_eq_of_order_eq hnext
  by_cases hnumber : rank v = 2
  · obtain ⟨x, rfl⟩ := exists_number_of_rank (hrank.trans hnumber)
    obtain ⟨y, rfl⟩ := exists_number_of_rank hnumber
    obtain ⟨z, rfl⟩ := exists_number_of_rank (hrank' ▸ hnumber)
    have hrounded : x.rounded = z.rounded :=
      (Number.rounded_eq_of_order_eq hkey).trans (Number.rounded_eq_of_order_eq hnext)
    cases y with
    | integer n =>
      cases x with
      | integer m =>
        have hmn : m = n := compare_eq_iff_eq.1 hkey
        rwa [hmn]
      | float x => exact (Number.order_float_left x z).trans (compare_eq_iff_eq.2 hrounded)
    | float y =>
      -- Of three tied numbers a float in the middle is the one case not settled by itself.
      cases z with
      | integer n => exact h y n hv hw hkey hnext
      | float z => exact (Number.order_float_right x z).trans (compare_eq_iff_eq.2 hrounded)
  · rw [order_eq_compare (comparable_of_rank (hrank ▸ hnumber) _), compare_eq_iff_eq] at hkey ⊢
    rw [order_eq_compare (comparable_of_rank hnumber _), compare_eq_iff_eq] at hnext
    exact hkey.trans hnext

theorem Unmixed.settled (h : Unmixed cells) (hkey : key ∈ cells) : Settled cells key := by
  intro x n hx hn heq hnext
  rw [h.order_eq hkey hx, compare_eq_iff_eq] at heq
  rw [h.order_eq hx hn, compare_eq_iff_eq] at hnext
  rw [h.order_eq hkey hn, compare_eq_iff_eq]
  exact heq.trans hnext

end
end Cell
end TablePlanner
