import Mathlib.Algebra.Order.Group.Nat
import TablePlanner.Numeric.Binary64

namespace TablePlanner

section
variable {num num' : Nat}

theorem div_le_roundHalfEven (num den : Nat) : num / den ≤ roundHalfEven num den := by
  unfold roundHalfEven
  dsimp only
  split
  · exact Nat.le_refl _
  · split <;> omega

theorem roundHalfEven_le_div_add_one (num den : Nat) : roundHalfEven num den ≤ num / den + 1 := by
  unfold roundHalfEven
  dsimp only
  split
  · exact Nat.le_add_right _ _
  · split <;> omega

theorem roundHalfEven_le_roundHalfEven (h : num ≤ num') (den : Nat) :
    roundHalfEven num den ≤ roundHalfEven num' den := by
  have hdiv : num / den ≤ num' / den := Nat.div_le_div_right h
  rcases Nat.lt_or_eq_of_le hdiv with hlt | heq
  · calc roundHalfEven num den ≤ num / den + 1 := roundHalfEven_le_div_add_one num den
      _ ≤ num' / den := hlt
      _ ≤ roundHalfEven num' den := div_le_roundHalfEven num' den
  · have hrem : num % den ≤ num' % den := by
      have hnum := Nat.div_add_mod num den
      have hnum' := Nat.div_add_mod num' den
      rw [heq] at hnum
      omega
    by_cases hlow : 2 * (num % den) < den
    · calc roundHalfEven num den = num / den := if_pos hlow
        _ = num' / den := heq
        _ ≤ roundHalfEven num' den := div_le_roundHalfEven num' den
    by_cases hhigh : den < 2 * (num' % den)
    · have hup : roundHalfEven num' den = num' / den + 1 := by
        unfold roundHalfEven
        dsimp only
        rw [if_neg (by omega), if_pos hhigh]
      rw [hup, ← heq]
      exact roundHalfEven_le_div_add_one num den
    -- What is left is a half in both.
    · have hsame : num % den = num' % den := by omega
      unfold roundHalfEven
      rw [heq, hsame]

theorem roundHalfEven_mul_mul (num den : Nat) {k : Nat} (hk : 0 < k) :
    roundHalfEven (k * num) (k * den) = roundHalfEven num den := by
  have hlt : ∀ a b, k * a < k * b ↔ a < b := fun a b => Nat.mul_lt_mul_left hk
  simp only [roundHalfEven, Nat.mul_div_mul_left num den hk, Nat.mul_mod_mul_left,
    Nat.mul_left_comm 2 k, hlt]

end

namespace Binary64

/-- The magnitude up to which every integer is a number of the format. -/
def greatestExact : Nat := 2 ^ 53

theorem one_pos : 0 < one := by
  apply Nat.pow_pos
  decide

theorem spacing_pos (units : Nat) : 0 < spacing units := Nat.two_pow_pos _

section
variable {units other : Nat}

theorem lt_spacing (units : Nat) : units < 2 ^ 53 * spacing units := by
  rcases Nat.eq_zero_or_pos units with rfl | hpos
  · decide
  · have hlog : units < 2 ^ (units.log2 + 1) := Nat.lt_log2_self
    have hexp : units.log2 + 1 ≤ 53 + (units.log2 - 52) := by omega
    calc units < 2 ^ (units.log2 + 1) := hlog
      _ ≤ 2 ^ (53 + (units.log2 - 52)) := Nat.pow_le_pow_right (by decide) hexp
      _ = 2 ^ 53 * spacing units := Nat.pow_add _ _ _

theorem roundHalfEven_le_greatestExact (units : Nat) :
    roundHalfEven units (spacing units) ≤ greatestExact := by
  rw [← roundHalfEven_mul greatestExact (spacing_pos units)]
  exact roundHalfEven_le_roundHalfEven (lt_spacing units).le _

theorem le_of_one_lt_spacing (h : 1 < spacing units) : 2 ^ 52 * spacing units ≤ units := by
  have hlog : 52 < units.log2 := by
    by_contra hle
    have hzero : units.log2 - 52 = 0 := by omega
    rw [spacing, hzero] at h
    exact absurd h (by decide)
  have hne : units ≠ 0 := by
    rintro rfl
    exact absurd hlog (by decide)
  calc 2 ^ 52 * spacing units = 2 ^ (52 + (units.log2 - 52)) := (Nat.pow_add _ _ _).symm
    _ = 2 ^ units.log2 := by congr 1; omega
    _ ≤ units := Nat.log2_self_le hne

theorem spacing_eq_or_wider (h : units ≤ other) :
    spacing other = spacing units ∨ 2 * spacing units ≤ spacing other := by
  have hlog : units.log2 ≤ other.log2 := by
    by_contra hlt
    have hne : units ≠ 0 := by
      rintro rfl
      exact hlt (Nat.zero_le _)
    have hpow : 2 ^ (other.log2 + 1) ≤ units :=
      (Nat.pow_le_pow_right (by decide) (by omega)).trans (Nat.log2_self_le hne)
    have hother : other < 2 ^ (other.log2 + 1) := Nat.lt_log2_self
    omega
  rcases Nat.lt_or_eq_of_le (Nat.sub_le_sub_right hlog 52) with hlt | heq
  · right
    calc 2 * spacing units = 2 ^ (units.log2 - 52 + 1) := Nat.pow_succ'.symm
      _ ≤ spacing other := Nat.pow_le_pow_right (by decide) hlt
  · left
    rw [spacing, spacing, heq]

theorem nearest_le_nearest (h : units ≤ other) : nearest units 1 ≤ nearest other 1 := by
  simp only [nearest, Nat.div_one, Nat.one_mul]
  rcases spacing_eq_or_wider h with hsame | hwider
  · rw [hsame]
    exact Nat.mul_le_mul_right _ (roundHalfEven_le_roundHalfEven h _)
  · -- Where the spacing grows, a power of two lies between the two magnitudes.
    have hpos := spacing_pos units
    have hbelow : roundHalfEven units (spacing units) ≤ 2 ^ 53 :=
      roundHalfEven_le_greatestExact units
    have habove : 2 ^ 52 ≤ roundHalfEven other (spacing other) := by
      rw [← roundHalfEven_mul (2 ^ 52) (spacing_pos other)]
      exact roundHalfEven_le_roundHalfEven (le_of_one_lt_spacing (by omega)) _
    calc roundHalfEven units (spacing units) * spacing units
        ≤ 2 ^ 53 * spacing units := Nat.mul_le_mul_right _ hbelow
      _ = 2 ^ 52 * (2 * spacing units) := by rw [← Nat.mul_assoc, ← Nat.pow_succ]
      _ ≤ 2 ^ 52 * spacing other := Nat.mul_le_mul_left _ hwider
      _ ≤ roundHalfEven other (spacing other) * spacing other := Nat.mul_le_mul_right _ habove

end

theorem signedUnits_ofInt_le {m n : Int} (h : m ≤ n) :
    (ofInt m).signedUnits ≤ (ofInt n).signedUnits := by
  unfold signedUnits ofInt
  by_cases hn : n < 0
  · have hm : m < 0 := by omega
    have habs : n.natAbs * one ≤ m.natAbs * one := Nat.mul_le_mul_right _ (by omega)
    have hle := nearest_le_nearest habs
    simp only [hm, hn, decide_true, if_true]
    omega
  · by_cases hm : m < 0
    · simp only [hm, hn, decide_true, decide_false, if_true, Bool.false_eq_true, if_false]
      omega
    · have habs : m.natAbs * one ≤ n.natAbs * one := Nat.mul_le_mul_right _ (by omega)
      have hle := nearest_le_nearest habs
      simp only [hm, hn, decide_false, Bool.false_eq_true, if_false]
      omega

theorem spacing_dvd_mul_pow {k : Nat} (h : k ≤ greatestExact) (e : Nat) :
    spacing (k * Nat.pow 2 e) ∣ k * Nat.pow 2 e := by
  change 2 ^ ((k * 2 ^ e).log2 - 52) ∣ k * 2 ^ e
  rcases Nat.lt_or_eq_of_le h with hlt | rfl
  · by_cases hzero : k = 0
    · simp [hzero]
    -- Below the bound the spacing divides the second factor.
    have hne : k * 2 ^ e ≠ 0 := Nat.mul_ne_zero hzero (Nat.two_pow_pos e).ne'
    have hsize : k * 2 ^ e < 2 ^ (53 + e) := by
      rw [Nat.pow_add]
      exact Nat.mul_lt_mul_of_pos_right hlt (Nat.two_pow_pos e)
    have hlog : (k * 2 ^ e).log2 < 53 + e := (Nat.log2_lt hne).2 hsize
    have hexp : (k * 2 ^ e).log2 - 52 ≤ e := by omega
    exact Nat.dvd_mul_left_of_dvd (Nat.pow_dvd_pow 2 hexp) k
  · have hpower : greatestExact * 2 ^ e = 2 ^ (53 + e) := (Nat.pow_add 2 53 e).symm
    rw [hpower, Nat.log2_two_pow]
    exact Nat.pow_dvd_pow 2 (by omega)

theorem representable_mul_one {k : Nat} (h : k ≤ greatestExact) : Representable (k * one) := by
  constructor
  · unfold one
    apply spacing_dvd_mul_pow h
  · apply Nat.mul_lt_mul_of_pos_right _ one_pos
    apply Nat.lt_of_le_of_lt h
    apply Nat.pow_lt_pow_right <;> decide

theorem signedUnits_ofInt {n : Int} (h : n.natAbs ≤ greatestExact) :
    (ofInt n).signedUnits = n * one := by
  have hnearest : nearest (n.natAbs * one) 1 = n.natAbs * one :=
    nearest_of_representable (representable_mul_one h)
  unfold signedUnits ofInt
  rw [hnearest]
  by_cases hn : n < 0
  · have habs : (n.natAbs : Int) = -n := by omega
    rw [decide_eq_true hn, if_pos rfl, Int.natCast_mul, habs, Int.neg_mul, Int.neg_neg]
  · have habs : (n.natAbs : Int) = n := by omega
    rw [decide_eq_false hn, if_neg Bool.false_ne_true, Int.natCast_mul, habs]

theorem ofInt_natCast {n : Nat} (h : n ≤ greatestExact) : ofInt n = ⟨false, n * one⟩ := by
  have hnearest : nearest (n * one) 1 = n * one :=
    nearest_of_representable (representable_mul_one h)
  rw [ofInt, Int.natAbs_natCast, hnearest, decide_eq_false (Int.natCast_nonneg n).not_gt]

theorem nearest_mul_right (units : Nat) {den : Nat} (h : 0 < den) :
    nearest (units * den) den = nearest units 1 := by
  simp only [nearest, Nat.mul_div_cancel units h, Nat.div_one, Nat.one_mul]
  rw [Nat.mul_comm units den, roundHalfEven_mul_mul _ _ h]

theorem ofInt_mul? {n : Nat} (h : n ≤ greatestExact) (x : Binary64) :
    (ofInt n).mul? x = ofRatio? x.negative (n * x.units) 1 := by
  rw [mul?, ofInt_natCast h, Nat.mul_right_comm, Bool.false_bne]
  unfold ofRatio?
  rw [nearest_mul_right _ one_pos]

section
variable {num den : Nat} {negative : Bool} {x : Binary64}

theorem spacing_dvd_nearest (num : Nat) (h : 0 < den) :
    spacing (nearest num den) ∣ nearest num den := by
  have hstep : 0 < den * spacing (num / den) := Nat.mul_pos h (spacing_pos _)
  have hbound : num ≤ 2 ^ 53 * (den * spacing (num / den)) := by
    have hdiv : num / den < 2 ^ 53 * spacing (num / den) := lt_spacing _
    rw [Nat.div_lt_iff_lt_mul h] at hdiv
    calc num ≤ 2 ^ 53 * spacing (num / den) * den := hdiv.le
      _ = 2 ^ 53 * (den * spacing (num / den)) := by rw [Nat.mul_assoc, Nat.mul_comm den]
  have hdigits : roundHalfEven num (den * spacing (num / den)) ≤ greatestExact := by
    rw [← roundHalfEven_mul greatestExact hstep]
    exact roundHalfEven_le_roundHalfEven hbound _
  exact spacing_dvd_mul_pow hdigits _

theorem representable_of_ofRatio? (h : 0 < den) (hx : ofRatio? negative num den = some x) :
    Representable x.units := by
  unfold ofRatio? at hx
  dsimp only at hx
  split at hx
  · next hlt =>
    cases hx
    exact ⟨spacing_dvd_nearest num h, hlt⟩
  · cases hx

theorem overflow_pos : 0 < overflow := by
  apply Nat.mul_pos _ one_pos
  apply Nat.two_pow_pos

theorem representable_of_ofDecimal? {digits : Nat} {exponent : Int}
    (hx : ofDecimal? negative digits exponent = some x) : Representable x.units := by
  unfold ofDecimal? at hx
  dsimp only at hx
  split at hx
  · cases hx
    exact ⟨Nat.dvd_zero _, overflow_pos⟩
  · split at hx
    · cases hx
    · split at hx
      · exact representable_of_ofRatio? (Nat.pow_pos (by decide)) hx
      · exact representable_of_ofRatio? Nat.one_pos hx

end

end Binary64
end TablePlanner
