import TablePlanner.Proofs.Numeric.Binary64

namespace TablePlanner.Binary64
variable {k : Nat} {m n : Int}

/-- A magnitude of at most 53 significant bits. -/
def Held (k : Nat) : Prop := ∃ m e, m ≤ greatestExact ∧ k = m * 2 ^ e

theorem held_of_le (h : k ≤ greatestExact) : Held k := ⟨k, 0, h, (Nat.mul_one k).symm⟩

theorem exists_one_eq : ∃ d, one = Nat.pow 2 d := by
  unfold one
  exact ⟨_, rfl⟩

theorem spacing_of_le_log2 {units d : Nat} (h : 53 + d ≤ units.log2) :
    spacing units = 2 ^ (units.log2 - 52 - d) * 2 ^ d := by
  rw [← Nat.pow_add, Nat.sub_add_cancel (by omega)]
  rfl

theorem spacing_mul_one (h : greatestExact < k) : ∃ e, spacing (k * one) = 2 ^ e * one := by
  obtain ⟨d, hone⟩ := exists_one_eq
  rw [hone, Nat.pow_eq]
  have hsize : 2 ^ (53 + d) ≤ k * 2 ^ d := by
    rw [Nat.pow_add]
    exact Nat.mul_le_mul_right _ h.le
  have hne : k * 2 ^ d ≠ 0 := (Nat.lt_of_lt_of_le (Nat.two_pow_pos _) hsize).ne'
  exact ⟨_, spacing_of_le_log2 ((Nat.le_log2 hne).2 hsize)⟩

theorem exists_nearest_mul_one (k : Nat) :
    ∃ q, nearest (k * one) 1 = q * one ∧ (q = k ↔ Held k) := by
  by_cases hk : k ≤ greatestExact
  · exact ⟨k, nearest_of_representable (representable_mul_one hk),
      iff_of_true rfl (held_of_le hk)⟩
  obtain ⟨e, he⟩ := spacing_mul_one (Nat.lt_of_not_le hk)
  have hnearest : nearest (k * one) 1 =
      roundHalfEven (k * one) (spacing (k * one)) * 2 ^ e * one := by
    simp only [nearest, Nat.div_one, Nat.one_mul]
    conv_lhs => arg 2; rw [he]
    rw [Nat.mul_assoc]
  refine ⟨_, hnearest, fun h => ⟨_, e, roundHalfEven_le_greatestExact _, h.symm⟩, ?_⟩
  rintro ⟨m, d, hm, rfl⟩
  have hdvd : spacing (m * 2 ^ d * one) ∣ m * 2 ^ d * one := by
    obtain ⟨d', hone⟩ := exists_one_eq
    rw [hone, Nat.pow_eq, Nat.mul_assoc, ← Nat.pow_add]
    exact spacing_dvd_mul_pow hm _
  rw [nearest_of_dvd hdvd] at hnearest
  exact (Nat.eq_of_mul_eq_mul_right one_pos hnearest).symm

theorem roundAway_mul_one (negative : Bool) (q : Nat) :
    roundAway ⟨negative, q * one⟩ = if negative then -(q : Int) else q := by
  have hmagnitude : (2 * (q * one) + one) / (2 * one) = q := by
    have hpos := one_pos
    rw [Nat.div_eq_iff (by omega), Nat.mul_left_comm]
    omega
  simp only [roundAway, hmagnitude]

theorem signedUnits_mul_one (negative : Bool) (q : Nat) :
    signedUnits ⟨negative, q * one⟩ = (if negative then -(q : Int) else q) * one := by
  have hsigned : ∀ units : Nat, signedUnits ⟨negative, units⟩ =
      if negative then -(units : Int) else units := fun _ => rfl
  rw [hsigned, Int.natCast_mul]
  split
  · rw [Int.neg_mul]
  · rfl

theorem signedUnits_ofInt_eq (n : Int) : (ofInt n).signedUnits = (ofInt n).roundAway * one := by
  obtain ⟨q, hq, -⟩ := exists_nearest_mul_one n.natAbs
  rw [ofInt, hq, signedUnits_mul_one, roundAway_mul_one]

theorem roundAway_ofInt_le (h : m ≤ n) : (ofInt m).roundAway ≤ (ofInt n).roundAway := by
  have hunits := signedUnits_ofInt_le h
  rw [signedUnits_ofInt_eq, signedUnits_ofInt_eq] at hunits
  exact Int.le_of_mul_le_mul_right hunits (Int.natCast_pos.2 one_pos)

theorem roundAway_ofInt_eq_iff : (ofInt n).roundAway = n ↔ Held n.natAbs := by
  obtain ⟨q, hq, hheld⟩ := exists_nearest_mul_one n.natAbs
  rw [← hheld, ofInt, hq, roundAway_mul_one]
  by_cases hn : n < 0
  · rw [decide_eq_true hn, if_pos rfl]
    omega
  · rw [decide_eq_false hn, if_neg Bool.false_ne_true]
    omega

end TablePlanner.Binary64
