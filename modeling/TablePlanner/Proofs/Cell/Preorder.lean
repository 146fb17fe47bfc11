import TablePlanner.Proofs.Cell.Ties

/-! On cells "less" is transitive, and "at most" is but for one case: a float between two integers
that are rounded to it, the greater integer first. -/
namespace TablePlanner
open Json

namespace Json.Number

def Unsigned (n : Int) : Prop := 0 ≤ n ∧ n ≤ greatestNat64

instance (n : Int) : Decidable (Unsigned n) := inferInstanceAs (Decidable (_ ∧ _))

/-- The order by the forms of two numbers: integers as signed ones if both are, else as unsigned
ones if both are, and everything else after rounding. -/
def orderByForm : Number → Number → Ordering
  | integer m, integer n =>
    if Signed m ∧ Signed n then compare m n
    else if Unsigned m ∧ Unsigned n then compare m n
    else (Binary64.ofInt m).order (.ofInt n)
  | x, y => x.binary64.order y.binary64

theorem rounded_lt_of_signs {m n : Int} (hm : m < 0) (hn : 0 ≤ n) :
    rounded (.integer m) < rounded (.integer n) := by
  have hone : (0 : Int) < Binary64.one := Int.natCast_pos.2 Binary64.one_pos
  calc (Binary64.ofInt m).signedUnits
      ≤ (Binary64.ofInt (-1)).signedUnits := Binary64.signedUnits_ofInt_le (by omega)
    _ = -1 * Binary64.one := Binary64.signedUnits_ofInt (by decide)
    _ < 0 * Binary64.one := by omega
    _ = (Binary64.ofInt 0).signedUnits := (Binary64.signedUnits_ofInt (by decide)).symm
    _ ≤ (Binary64.ofInt n).signedUnits := Binary64.signedUnits_ofInt_le hn

/-- Of two integers of 64 bits that have no form in common one is negative, and they stay apart
when they are rounded. -/
theorem order_eq_orderByForm {x y : Number} (hx : ∀ n, x = .integer n → InRange n)
    (hy : ∀ n, y = .integer n → InRange n) : x.order y = x.orderByForm y := by
  cases x with
  | float x => cases y <;> rfl
  | integer m =>
    cases y with
    | float y => rfl
    | integer n =>
      have hm : InRange m := hx m rfl
      have hn : InRange n := hy n rfl
      rw [orderByForm]
      split
      · rfl
      · next hsigned =>
        split
        · rfl
        · next hunsigned =>
          unfold InRange leastInt64 greatestNat64 at hm hn
          unfold Signed leastInt64 greatestInt64 at hsigned
          unfold Unsigned greatestNat64 at hunsigned
          by_cases hneg : m < 0
          · have hpos : 0 ≤ n := by omega
            have hlt : m < n := by omega
            exact (compare_lt_iff_lt.2 hlt).trans
              (compare_lt_iff_lt.2 (rounded_lt_of_signs hneg hpos)).symm
          · have hother : n < 0 := by omega
            have hgt : n < m := by omega
            exact (compare_gt_iff_gt.2 hgt).trans
              (compare_gt_iff_gt.2 (rounded_lt_of_signs hother (not_lt.1 hneg))).symm

variable {x y z : Number}

theorem rounded_le_of_order_ne_gt (h : x.order y ≠ .gt) : x.rounded ≤ y.rounded := by
  cases hxy : x.order y with
  | lt => exact rounded_le_of_order_lt hxy
  | eq => exact (rounded_eq_of_order_eq hxy).le
  | gt => exact absurd hxy h

/-- The greater integer first, the lesser last, and between them a float that both are rounded
to. -/
def Straddles : Number → Number → Number → Prop
  | integer m, float x, integer n =>
    n < m ∧ rounded (.integer m) = rounded (.float x) ∧ rounded (.integer n) = rounded (.float x)
  | _, _, _ => False

theorem order_eq_gt_iff_straddles (h : x.order y ≠ .gt) (h' : y.order z ≠ .gt) :
    x.order z = .gt ↔ Straddles x y z := by
  have hle := rounded_le_of_order_ne_gt h
  have hle' := rounded_le_of_order_ne_gt h'
  have hrounded : compare x.rounded z.rounded ≠ .gt := compare_le_iff_le.2 (hle.trans hle')
  cases x with
  | float x =>
    rw [order_float_left]
    exact iff_of_false hrounded id
  | integer m =>
    cases z with
    | float z =>
      rw [order_float_right]
      exact iff_of_false hrounded (by cases y <;> exact id)
    | integer n =>
      cases y with
      | integer k =>
        have hmk : m ≤ k := compare_le_iff_le.1 h
        have hkn : k ≤ n := compare_le_iff_le.1 h'
        exact iff_of_false (compare_le_iff_le.2 (hmk.trans hkn)) id
      | float y =>
        -- Beside a float both integers count as rounded, and rounding keeps "at most" only.
        constructor
        · intro hgt
          have hnm : n < m := compare_gt_iff_gt.1 hgt
          have hback : rounded (.integer n) ≤ rounded (.integer m) :=
            Binary64.signedUnits_ofInt_le hnm.le
          exact ⟨hnm, le_antisymm hle (hle'.trans hback), le_antisymm (hback.trans hle) hle'⟩
        · rintro ⟨hnm, -, -⟩
          exact compare_gt_iff_gt.2 hnm

end Json.Number

namespace Cell
variable {a b c : Value}

/-- Three numbers of which the middle one has lost the order of the others. -/
def Straddles : Value → Value → Value → Prop
  | .number x, .number y, .number z => Number.Straddles x y z
  | _, _, _ => False

theorem rank_le_of_order_ne_gt (h : order a b ≠ .gt) : rank a ≤ rank b := by
  cases hab : order a b with
  | lt => exact rank_le_of_order_lt hab
  | eq => exact (rank_eq_of_order_eq hab).le
  | gt => exact absurd hab h

theorem rank_of_straddles (h : Straddles a b c) : rank a = 2 ∧ rank b = 2 ∧ rank c = 2 := by
  unfold Straddles at h
  split at h
  · exact ⟨rfl, rfl, rfl⟩
  · exact h.elim

theorem order_eq_gt_iff_straddles (h : order a b ≠ .gt) (h' : order b c ≠ .gt) :
    order a c = .gt ↔ Straddles a b c := by
  have hle := rank_le_of_order_ne_gt h
  have hle' := rank_le_of_order_ne_gt h'
  by_cases hac : rank a = rank c
  · have hab : rank a = rank b := by omega
    by_cases hnumber : rank a = 2
    · obtain ⟨x, rfl⟩ := exists_number_of_rank hnumber
      obtain ⟨y, rfl⟩ := exists_number_of_rank (hab ▸ hnumber)
      obtain ⟨z, rfl⟩ := exists_number_of_rank (hac ▸ hnumber)
      exact Number.order_eq_gt_iff_straddles h h'
    · rw [order_eq_compare (comparable_of_rank hnumber _)] at h ⊢
      rw [order_eq_compare (comparable_of_rank (hab ▸ hnumber) _)] at h'
      have hplaces := (compare_le_iff_le.1 h).trans (compare_le_iff_le.1 h')
      exact iff_of_false (compare_le_iff_le.2 hplaces) fun hs => hnumber (rank_of_straddles hs).1
  · have hlt : rank a < rank c := by omega
    rw [order_eq_compare_rank hac]
    apply iff_of_false (compare_le_iff_le.2 hlt.le)
    intro hs
    obtain ⟨ha, -, hc⟩ := rank_of_straddles hs
    omega

theorem order_ne_eq_iff_straddles (h : order a b = .eq) (h' : order b c = .eq) :
    order a c ≠ .eq ↔ Straddles a b c ∨ Straddles c b a := by
  have hforth : order a c = .gt ↔ Straddles a b c :=
    order_eq_gt_iff_straddles (by simp [h]) (by simp [h'])
  have hback : order c a = .gt ↔ Straddles c b a :=
    order_eq_gt_iff_straddles (by simp [order_eq_comm.1 h']) (by simp [order_eq_comm.1 h])
  rw [← hforth, ← hback, ← order_swap a c]
  cases order a c <;> simp

theorem Unmixed.not_straddles {cells : List Value} (h : Unmixed cells) (ha : a ∈ cells)
    (hb : b ∈ cells) (hc : c ∈ cells) : ¬ Straddles a b c := by
  intro hs
  unfold Straddles at hs
  split at hs
  · next x y z =>
    cases x with
    | float x => exact hs
    | integer m =>
      cases y with
      | integer k => exact hs
      | float y =>
        cases z with
        | float z => exact hs
        | integer n =>
          obtain ⟨hnm, hm, hn⟩ := hs
          have hone : (0 : Int) < Binary64.one := Int.natCast_pos.2 Binary64.one_pos
          have hsame : m * Binary64.one = n * Binary64.one := by
            rw [← Binary64.signedUnits_ofInt (h y m hb ha),
              ← Binary64.signedUnits_ofInt (h y n hb hc)]
            exact hm.trans hn.symm
          have heq : m = n := Int.eq_of_mul_eq_mul_right hone.ne' hsame
          omega
  · exact hs

/-- The order of cells is that of a sort in everything but one: across a float it can lose the
order of two integers that are rounded to it. -/
theorem order_transitive_unless_straddled (a b c : Value) :
    (∀ x y : Number, a = .number x → b = .number y → (∀ n, x = .integer n → Number.InRange n) →
      (∀ n, y = .integer n → Number.InRange n) → order a b = x.orderByForm y) ∧
    order a a = .eq ∧
    (order a b).swap = order b a ∧
    (order a b = .lt → order b c = .lt → order a c = .lt) ∧
    (order a b ≠ .gt → order b c ≠ .gt → (order a c = .gt ↔ Straddles a b c)) ∧
    (order a b = .eq → order b c = .eq →
      (order a c ≠ .eq ↔ Straddles a b c ∨ Straddles c b a)) ∧
    ∀ cells : List Value, Unmixed cells → a ∈ cells → b ∈ cells → c ∈ cells →
      order a b ≠ .gt → order b c ≠ .gt → order a c ≠ .gt := by
  refine ⟨?_, order_self a, order_swap a b, order_lt_trans, order_eq_gt_iff_straddles,
    order_ne_eq_iff_straddles, ?_⟩
  · rintro x y rfl rfl hx hy
    exact Number.order_eq_orderByForm hx hy
  · intro cells hcells ha hb hc hab hbc hac
    exact hcells.not_straddles ha hb hc ((order_eq_gt_iff_straddles hab hbc).1 hac)

/-- The float `2 ^ 53`, the last up to which no two integers have one float. -/
def lastExact : Value := .number (.float (.ofInt 9007199254740992))

theorem order_at_range_ends :
    Number.orderByForm (.integer (-9223372036854775808)) (.integer 18446744073709551615) = .lt ∧
    order (.int (-9223372036854775808)) lastExact = .lt ∧
    order lastExact (.int 18446744073709551615) = .lt ∧
    Straddles (.int 9007199254740993) lastExact (.int 9007199254740992) ∧
    order (.int 9007199254740992) (.string "") ≠ .gt := by
  have hlow : order (.int (-9223372036854775808)) lastExact = .lt := by decide +kernel
  have hhigh : order lastExact (.int 18446744073709551615) = .lt := by decide +kernel
  obtain ⟨-, -, -, htrans, -⟩ := order_transitive_unless_straddled (.int (-9223372036854775808))
    lastExact (.int 18446744073709551615)
  obtain ⟨hform, -⟩ := order_transitive_unless_straddled (.int (-9223372036854775808))
    (.int 18446744073709551615) lastExact
  obtain ⟨-, -, -, -, hgt, -⟩ := order_transitive_unless_straddled (.int 9007199254740993) lastExact
    (.int 9007199254740992)
  obtain ⟨-, -, -, -, -, -, hsorted⟩ := order_transitive_unless_straddled (.int 9007199254740992)
    lastExact (.string "")
  refine ⟨?_, hlow, hhigh, ?_, ?_⟩
  · have hforms := hform (.integer (-9223372036854775808)) (.integer 18446744073709551615) rfl rfl
      (by rintro n ⟨⟩; decide) (by rintro n ⟨⟩; decide)
    exact hforms.symm.trans (htrans hlow hhigh)
  · exact (hgt (by decide +kernel) (by decide +kernel)).1 (by decide +kernel)
  · have hunmixed : Unmixed [.int 9007199254740992, lastExact, .string ""] := by
      intro x n _ hn
      simp [Value.int, lastExact] at hn
      rw [hn]
      decide
    exact hsorted _ hunmixed (by simp) (by simp) (by simp) (by decide +kernel) (by decide +kernel)

/-- Beyond `2 ^ 53` two ties do not make a third. -/
theorem order_not_transitive :
    order (.int 9007199254740993) lastExact = .eq ∧
    order lastExact (.int 9007199254740992) = .eq ∧
    order (.int 9007199254740993) (.int 9007199254740992) = .gt := by
  decide +kernel

end Cell
end TablePlanner
