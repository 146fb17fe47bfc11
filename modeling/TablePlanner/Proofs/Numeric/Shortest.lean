import Mathlib.Algebra.Order.Field.Power
import Mathlib.Algebra.Order.Field.Rat
import Mathlib.Tactic.FieldSimp
import Mathlib.Tactic.Linarith
import Mathlib.Tactic.Positivity
import Mathlib.Tactic.Ring
import TablePlanner.Numeric.Shortest
import TablePlanner.Proofs.Numeric.Binary64

/-! Where the intervals of two magnitudes meet, one of the significands is odd and leaves the
midpoint out, so no two magnitudes share a decimal. Seventeen digits always read back, for the
points of their grid are less than two such intervals apart. -/
namespace TablePlanner

def Decimal.value (d : Decimal) : ℚ := d.digits * 10 ^ d.exponent

namespace Binary64

section
variable {units other : Nat}

theorem evenSignificand_mul (h : units = spacing units * n) :
    evenSignificand units = (n % 2 == 0) := by
  have hdiv : units / spacing units = n := by
    conv_lhs => arg 1; rw [h]
    exact Nat.mul_div_cancel_left n (spacing_pos units)
  rw [evenSignificand, hdiv]

theorem low_midpoint_of_power (h : units = 2 ^ 52 * spacing units) (hgap : 1 < spacing units) :
    (midpoints units).1 = 4 * units - spacing units := by
  have hpower : units = Nat.pow 2 52 * spacing units ∧ 1 < spacing units := ⟨h, hgap⟩
  unfold midpoints
  dsimp only
  rw [if_pos hpower]

theorem le_low_midpoint (units : Nat) : 4 * units - 2 * spacing units ≤ (midpoints units).1 := by
  unfold midpoints
  dsimp only
  split <;> omega

theorem high_midpoint (units : Nat) : (midpoints units).2 = 4 * units + 2 * spacing units := rfl

theorem apart_of_same_gap {gap m n low : Nat} (h : gap * m < gap * n)
    (hlow : 4 * (gap * n) - 2 * gap ≤ low) :
    4 * (gap * m) + 2 * gap ≤ low ∧ (4 * (gap * m) + 2 * gap = low → n = m + 1) := by
  have hmn : m + 1 ≤ n := Nat.lt_of_mul_lt_mul_left h
  have hnext : gap * m + gap ≤ gap * n := Nat.mul_le_mul_left gap hmn
  constructor
  · omega
  · intro heq
    by_contra hne
    have hskip : gap * (m + 2) ≤ gap * n := Nat.mul_le_mul_left gap (by omega)
    rw [Nat.mul_add] at hskip
    omega

theorem apart_of_wider_gap {gap gap' m n power low : Nat} (hgap : 0 < gap) (hm : m < 2 * power)
    (hwider : 2 * gap ≤ gap') (hn : power ≤ n) (hlow : 4 * (gap' * n) - 2 * gap' ≤ low)
    (hpower : n = power → low = 4 * (gap' * n) - gap') :
    4 * (gap * m) + 2 * gap ≤ low ∧ (4 * (gap * m) + 2 * gap = low → m + 1 = 2 * power) := by
  obtain ⟨more, rfl⟩ := Nat.exists_eq_add_of_le hwider
  have hbelow : gap * (m + 1) ≤ gap * (2 * power) := Nat.mul_le_mul_left gap hm
  have hmore : more ≤ more * power := Nat.le_mul_of_pos_right more (by omega)
  have hscaled : (2 * gap + more) * power = gap * (2 * power) + more * power := by ring
  rw [Nat.mul_add, Nat.mul_one] at hbelow
  rcases Nat.lt_or_eq_of_le hn with hlt | rfl
  · have habove : (2 * gap + more) * (power + 1) ≤ (2 * gap + more) * n :=
      Nat.mul_le_mul_left _ hlt
    rw [Nat.mul_add, Nat.mul_one] at habove
    constructor <;> omega
  · have hlow := hpower rfl
    constructor
    · omega
    · intro heq
      have habove : gap * (2 * power) ≤ gap * (m + 1) := by
        rw [Nat.mul_add, Nat.mul_one]
        omega
      have hle : 2 * power ≤ m + 1 := Nat.le_of_mul_le_mul_left habove hgap
      omega

/-- The intervals of two magnitudes meet in a midpoint at most, and not both of them have it. -/
theorem midpoints_apart (hunits : spacing units ∣ units) (hother : spacing other ∣ other)
    (h : units < other) :
    (midpoints units).2 ≤ (midpoints other).1 ∧
      ((midpoints units).2 = (midpoints other).1 →
        evenSignificand units = false ∨ evenSignificand other = false) := by
  obtain ⟨m, hm⟩ := hunits
  obtain ⟨n, hn⟩ := hother
  have hpos := spacing_pos units
  have hbound : m < 2 ^ 53 := by
    apply Nat.lt_of_mul_lt_mul_left (a := spacing units)
    rw [← hm, Nat.mul_comm]
    exact lt_spacing units
  have hlow : 4 * (spacing other * n) - 2 * spacing other ≤ (midpoints other).1 := by
    rw [← hn]
    exact le_low_midpoint other
  have hlt : spacing units * m < spacing other * n := by
    rwa [← hm, ← hn]
  have hhigh : (midpoints units).2 = 4 * (spacing units * m) + 2 * spacing units := by
    rw [← hm]
    exact high_midpoint units
  rw [evenSignificand_mul hm, evenSignificand_mul hn, hhigh]
  rcases spacing_eq_or_wider h.le with hsame | hwider
  · rw [hsame] at hlow hlt
    obtain ⟨hle, hnext⟩ := apart_of_same_gap hlt hlow
    refine ⟨hle, fun heq => ?_⟩
    rw [hnext heq]
    rcases Nat.mod_two_eq_zero_or_one m with hm' | hm'
    · right
      have hodd : (m + 1) % 2 = 1 := by omega
      rw [hodd]
      rfl
    · left
      rw [hm']
      rfl
  · have hgap : 1 < spacing other := by omega
    have hfloor : 2 ^ 52 ≤ n := by
      have hscaled : spacing other * 2 ^ 52 ≤ spacing other * n := by
        rw [← hn, Nat.mul_comm]
        exact le_of_one_lt_spacing hgap
      exact Nat.le_of_mul_le_mul_left hscaled (spacing_pos other)
    have hdouble : (2 : Nat) ^ 53 = 2 * 2 ^ 52 := Nat.pow_succ'
    have hpower : n = 2 ^ 52 →
        (midpoints other).1 = 4 * (spacing other * n) - spacing other := by
      intro hn'
      rw [← hn]
      apply low_midpoint_of_power _ hgap
      rw [← hn', Nat.mul_comm]
      exact hn
    rw [hdouble] at hbound
    obtain ⟨hle, hend⟩ := apart_of_wider_gap hpos hbound hwider hfloor hlow hpower
    refine ⟨hle, fun heq => .inl ?_⟩
    have hodd : m % 2 = 1 := by
      have hm' := hend heq
      omega
    rw [hodd]
    rfl

/-- Magnitudes that read back as one of the format: those between its midpoints, the midpoints too
if the significand is even. -/
structure ReadsBack (units : Nat) (q : ℚ) : Prop where
  low : (midpoints units).1 ≤ q * (4 * one)
  high : q * (4 * one) ≤ (midpoints units).2
  apart : evenSignificand units = false →
    (midpoints units).1 ≠ q * (4 * one) ∧ q * (4 * one) ≠ (midpoints units).2

theorem ReadsBack.not_lt {q : ℚ} (h : ReadsBack units q) (h' : ReadsBack other q)
    (hunits : spacing units ∣ units) (hother : spacing other ∣ other) : ¬ units < other := by
  intro hlt
  obtain ⟨hle, hmeet⟩ := midpoints_apart hunits hother hlt
  have hle : ((midpoints units).2 : ℚ) ≤ (midpoints other).1 := Nat.cast_le.2 hle
  have hhigh : q * (4 * one) = (midpoints units).2 :=
    le_antisymm h.high (hle.trans h'.low)
  have hlow : q * (4 * one) = (midpoints other).1 :=
    le_antisymm (h.high.trans hle) h'.low
  have hsame : (midpoints units).2 = (midpoints other).1 :=
    Nat.cast_injective (hhigh.symm.trans hlow)
  rcases hmeet hsame with hodd | hodd
  · exact (h.apart hodd).2 hhigh
  · exact (h'.apart hodd).1 hlow.symm

theorem eq_of_readsBack {q : ℚ} (hunits : spacing units ∣ units) (hother : spacing other ∣ other)
    (h : ReadsBack units q) (h' : ReadsBack other q) : units = other :=
  Nat.le_antisymm (Nat.le_of_not_lt (h'.not_lt h hother hunits))
    (Nat.le_of_not_lt (h.not_lt h' hunits hother))

/-- The whole numbers by which magnitudes and grid points are multiplied to compare them. -/
def gridScale (grid : Int) : Nat := if grid < 0 then Nat.pow 10 grid.natAbs else 1

def gridStep (grid : Int) : Nat := if grid < 0 then one else one * Nat.pow 10 grid.natAbs

def inside (units : Nat) (grid : Int) (c : Nat) : Bool :=
  if evenSignificand units then
    (midpoints units).1 * gridScale grid ≤ 4 * c * gridStep grid &&
      4 * c * gridStep grid ≤ (midpoints units).2 * gridScale grid
  else
    (midpoints units).1 * gridScale grid < 4 * c * gridStep grid &&
      4 * c * gridStep grid < (midpoints units).2 * gridScale grid

theorem gridScale_pos (grid : Int) : 0 < gridScale grid := by
  unfold gridScale
  split
  · exact Nat.pow_pos (by decide)
  · exact Nat.one_pos

theorem gridStep_eq (grid : Int) : (gridStep grid : ℚ) = 10 ^ grid * one * gridScale grid := by
  have hpow : ∀ n : Nat, ((Nat.pow 10 n : Nat) : ℚ) = 10 ^ n := fun n => Nat.cast_pow 10 n
  unfold gridStep gridScale
  split
  · next hneg =>
    have hgrid : grid = -(grid.natAbs : Int) := by omega
    have hcancel : (10 : ℚ) ^ grid * 10 ^ grid.natAbs = 1 := by
      conv_lhs => arg 1; rw [hgrid]
      rw [zpow_neg, zpow_natCast]
      exact inv_mul_cancel₀ (by positivity)
    rw [hpow, mul_right_comm, hcancel, one_mul]
  · next hpos =>
    have hgrid : (grid.natAbs : Int) = grid := by omega
    rw [Nat.cast_mul, hpow, ← zpow_natCast, hgrid, Nat.cast_one, mul_one, mul_comm]

theorem readsBack_of_inside {grid : Int} {c : Nat} (h : inside units grid c = true) :
    ReadsBack units (c * 10 ^ grid) := by
  have hscale : (0 : ℚ) < gridScale grid := Nat.cast_pos.2 (gridScale_pos grid)
  have hpoint : ((4 * c * gridStep grid : Nat) : ℚ) =
      c * 10 ^ grid * (4 * one) * gridScale grid := by
    rw [Nat.cast_mul, gridStep_eq]
    push_cast
    ring
  have hbounds : (midpoints units).1 * gridScale grid ≤ 4 * c * gridStep grid ∧
      4 * c * gridStep grid ≤ (midpoints units).2 * gridScale grid ∧
      (evenSignificand units = false →
        (midpoints units).1 * gridScale grid ≠ 4 * c * gridStep grid ∧
          4 * c * gridStep grid ≠ (midpoints units).2 * gridScale grid) := by
    unfold inside at h
    cases heven : evenSignificand units with
    | true =>
      simp only [heven, if_true, Bool.and_eq_true, decide_eq_true_iff] at h
      exact ⟨h.1, h.2, by simp⟩
    | false =>
      simp only [heven, if_false, Bool.and_eq_true, decide_eq_true_iff, Bool.false_eq_true] at h
      exact ⟨h.1.le, h.2.le, fun _ => ⟨h.1.ne, h.2.ne⟩⟩
  obtain ⟨hlow, hhigh, hapart⟩ := hbounds
  constructor
  · apply le_of_mul_le_mul_right _ hscale
    rw [← hpoint]
    exact_mod_cast hlow
  · apply le_of_mul_le_mul_right _ hscale
    rw [← hpoint]
    exact_mod_cast hhigh
  · intro hodd
    obtain ⟨hlow, hhigh⟩ := hapart hodd
    constructor
    · intro heq
      apply hlow
      have hscaled := congrArg (· * (gridScale grid : ℚ)) heq
      simp only [← hpoint] at hscaled
      exact_mod_cast hscaled
    · intro heq
      apply hhigh
      have hscaled := congrArg (· * (gridScale grid : ℚ)) heq
      simp only [← hpoint] at hscaled
      exact_mod_cast hscaled

theorem gridPoint?_eq (units : Nat) (grid : Int) :
    gridPoint? units grid =
      match inside units grid (units * gridScale grid / gridStep grid),
        inside units grid (units * gridScale grid / gridStep grid + 1) with
      | false, false => none
      | true, false => some (units * gridScale grid / gridStep grid)
      | false, true => some (units * gridScale grid / gridStep grid + 1)
      | true, true =>
        match compare (2 * units * gridScale grid)
          ((2 * (units * gridScale grid / gridStep grid) + 1) * gridStep grid) with
        | .lt => some (units * gridScale grid / gridStep grid)
        | .gt => some (units * gridScale grid / gridStep grid + 1)
        | .eq => some (units * gridScale grid / gridStep grid +
            units * gridScale grid / gridStep grid % 2) := rfl

theorem inside_of_gridPoint? {grid : Int} {c : Nat} (h : gridPoint? units grid = some c) :
    inside units grid c = true := by
  rw [gridPoint?_eq] at h
  generalize hbelow : units * gridScale grid / gridStep grid = below at h
  split at h
  · cases h
  · next hin _ =>
    cases h
    exact hin
  · next hin =>
    cases h
    exact hin
  · next hin hnext =>
    split at h
    · cases h
      exact hin
    · cases h
      exact hnext
    · cases h
      rcases Nat.mod_two_eq_zero_or_one below with heven | hodd
      · rwa [heven]
      · rwa [hodd]

theorem pow_length_le {n : Nat} (h : 0 < n) : 10 ^ ((Nat.toDigits 10 n).length - 1) ≤ n := by
  generalize hlength : (Nat.toDigits 10 n).length = length
  rcases Nat.lt_or_ge length 2 with hone | htwo
  · have hzero : length - 1 = 0 := by omega
    rw [hzero]
    exact h
  · have hlong : ¬ (Nat.toDigits 10 n).length ≤ length - 1 := by omega
    rw [Nat.length_toDigits_le_iff (by decide) (by omega)] at hlong
    exact Nat.le_of_not_lt hlong

theorem two_pow_le {e d k : Nat} (h : e ≤ 33 * k) (hd : d = 10 * k) :
    Nat.pow 2 e ≤ Nat.pow 10 d := by
  subst hd
  have hsmall : (2 : Nat) ^ 33 ≤ 10 ^ 10 := by decide
  calc 2 ^ e ≤ 2 ^ (33 * k) := Nat.pow_le_pow_right (by decide) h
    _ = (2 ^ 33) ^ k := Nat.pow_mul _ _ _
    _ ≤ (10 ^ 10) ^ k := Nat.pow_le_pow_left hsmall k
    _ = 10 ^ (10 * k) := (Nat.pow_mul _ _ _).symm

theorem one_le_pow : one ≤ Nat.pow 10 330 := by
  unfold one
  apply two_pow_le (k := 33)
  · decide
  · decide

theorem leadingExponent_le (h : 0 < units) :
    (10 : ℚ) ^ leadingExponent units * one ≤ units := by
  have hpos : 0 < units * Nat.pow 10 330 / one := by
    apply Nat.div_pos _ one_pos
    exact one_le_pow.trans (Nat.le_mul_of_pos_left _ h)
  have hlead := pow_length_le hpos
  have hlength : 0 < (Nat.toDigits 10 (units * Nat.pow 10 330 / one)).length :=
    Nat.length_toDigits_pos
  have hfloor := (Nat.mul_le_mul_right one hlead).trans (Nat.div_mul_le_self _ _)
  unfold leadingExponent
  generalize Nat.toDigits 10 (units * Nat.pow 10 330 / one) = digits at hlength hfloor ⊢
  have hexp : (digits.length : Int) - 331 = ((digits.length - 1 : Nat) : Int) - (330 : Nat) := by
    omega
  rw [hexp, zpow_sub₀ (by norm_num), zpow_natCast, zpow_natCast, div_mul_eq_mul_div]
  generalize 330 = scale at hfloor ⊢
  have hscale : ((Nat.pow 10 scale : Nat) : ℚ) = 10 ^ scale := Nat.cast_pow 10 scale
  apply div_le_of_le_mul₀
  · positivity
  · positivity
  · rw [← hscale]
    exact_mod_cast hfloor

theorem exists_half_interval (h : 0 < units) :
    ∃ width, (midpoints units).1 + width = 4 * units ∧ width ≤ 2 * spacing units ∧
      units ≤ 2 ^ 52 * width := by
  have hsize := lt_spacing units
  have hpos := spacing_pos units
  have hgap : spacing units ≤ units := by
    rcases Nat.lt_or_ge 1 (spacing units) with hwide | hleast
    · have hfloor := le_of_one_lt_spacing hwide
      omega
    · omega
  by_cases hpower : units = 2 ^ 52 * spacing units ∧ 1 < spacing units
  · refine ⟨spacing units, ?_, by omega, by omega⟩
    rw [low_midpoint_of_power hpower.1 hpower.2]
    omega
  · have hlow : (midpoints units).1 = 4 * units - 2 * spacing units := by
      have hother : ¬ (units = Nat.pow 2 52 * spacing units ∧ 1 < spacing units) := hpower
      unfold midpoints
      dsimp only
      rw [if_neg hother]
    refine ⟨2 * spacing units, ?_, le_refl _, by omega⟩
    rw [hlow]
    omega

theorem gridStep_pos (grid : Int) : 0 < gridStep grid := by
  unfold gridStep
  split
  · exact one_pos
  · exact Nat.mul_pos one_pos (Nat.pow_pos (by decide))

theorem inside_of_lt {grid : Int} {c : Nat}
    (hlow : (midpoints units).1 * gridScale grid < 4 * (gridStep grid * c))
    (hhigh : 4 * (gridStep grid * c) < (midpoints units).2 * gridScale grid) :
    inside units grid c = true := by
  have hpoint : 4 * c * gridStep grid = 4 * (gridStep grid * c) := by
    rw [Nat.mul_assoc, Nat.mul_comm c]
  unfold inside
  rw [hpoint]
  cases evenSignificand units with
  | true => simp [hlow.le, hhigh.le]
  | false => simp [hlow, hhigh]

theorem inside_of_fine_grid {grid : Int} (h : 0 < units)
    (hgrid : 10 ^ 16 * gridStep grid ≤ units * gridScale grid) :
    inside units grid (units * gridScale grid / gridStep grid) = true ∨
      inside units grid (units * gridScale grid / gridStep grid + 1) = true := by
  obtain ⟨width, hlow, hwidth, hwide⟩ := exists_half_interval h
  have hstep := gridStep_pos grid
  have hsplit := Nat.div_add_mod (units * gridScale grid) (gridStep grid)
  have hrest := Nat.mod_lt (units * gridScale grid) hstep
  have hlowScaled : (midpoints units).1 * gridScale grid + width * gridScale grid =
      4 * (units * gridScale grid) := by
    rw [← Nat.add_mul, hlow, Nat.mul_assoc]
  have hhighScaled : 4 * (units * gridScale grid) + width * gridScale grid ≤
      (midpoints units).2 * gridScale grid := by
    rw [high_midpoint, ← Nat.mul_assoc, ← Nat.add_mul]
    exact Nat.mul_le_mul_right _ (Nat.add_le_add_left hwidth _)
  have hwideScaled : units * gridScale grid ≤ 2 ^ 52 * (width * gridScale grid) := by
    rw [← Nat.mul_assoc]
    exact Nat.mul_le_mul_right _ hwide
  have hnext : gridStep grid * (units * gridScale grid / gridStep grid + 1) =
      gridStep grid * (units * gridScale grid / gridStep grid) + gridStep grid :=
    Nat.mul_succ _ _
  rcases Nat.lt_or_ge (gridStep grid) (2 * (units * gridScale grid % gridStep grid)) with
    hfar | hnear
  · right
    apply inside_of_lt
    · omega
    · omega
  · left
    apply inside_of_lt
    · omega
    · omega

theorem exists_gridPoint?_of_fine_grid {grid : Int} (h : 0 < units)
    (hgrid : 10 ^ 16 * gridStep grid ≤ units * gridScale grid) :
    ∃ c, gridPoint? units grid = some c := by
  cases hpoint : gridPoint? units grid with
  | some c => exact ⟨c, rfl⟩
  | none =>
    rw [gridPoint?_eq] at hpoint
    split at hpoint
    · next hbelow habove =>
      rcases inside_of_fine_grid h hgrid with hin | hin
      · cases hbelow.symm.trans hin
      · cases habove.symm.trans hin
    · cases hpoint
    · cases hpoint
    · split at hpoint <;> cases hpoint

/-- Seventeen digits of a magnitude read back. -/
theorem exists_gridPoint? (h : 0 < units) :
    ∃ c, gridPoint? units (leadingExponent units - 16) = some c := by
  apply exists_gridPoint?_of_fine_grid h
  have hlead := leadingExponent_le h
  generalize leadingExponent units = lead at hlead ⊢
  have hscale : (0 : ℚ) < gridScale (lead - 16) := Nat.cast_pos.2 (gridScale_pos _)
  have hscaled := mul_le_mul_of_nonneg_right hlead hscale.le
  have hstep : (10 : ℚ) ^ 16 * gridStep (lead - 16) =
      10 ^ lead * one * gridScale (lead - 16) := by
    rw [gridStep_eq, zpow_sub₀ (by norm_num)]
    generalize (one : ℚ) = unit
    field_simp
  rw [← hstep] at hscaled
  exact_mod_cast hscaled

end
end Binary64

theorem Decimal.value_trim (fuel : Nat) (d : Decimal) : (d.trim fuel).value = d.value := by
  induction fuel generalizing d with
  | zero => rfl
  | succ fuel ih =>
    unfold trim
    split
    · next hzero =>
      rw [ih]
      have hdigits : d.digits = d.digits / 10 * 10 := by omega
      unfold value
      rw [zpow_add₀ (by norm_num)]
      conv_rhs => rw [hdigits]
      push_cast
      ring
    · rfl

namespace Binary64
variable {units other : Nat}

theorem readsBack_shortest (h : 0 < units) : ReadsBack units (shortest units).value := by
  obtain ⟨point, hpoint⟩ := exists_gridPoint? h
  unfold shortest
  dsimp only
  generalize hfound : (List.range 17).findSome? _ = found
  cases found with
  | none =>
    have hlast := List.findSome?_eq_none_iff.1 hfound 16 (by decide)
    rw [Nat.cast_ofNat, hpoint] at hlast
    cases hlast
  | some d =>
    obtain ⟨count, -, hd⟩ := List.exists_of_findSome?_eq_some hfound
    obtain ⟨c, hc, rfl⟩ := Option.map_eq_some_iff.1 hd
    rw [Option.getD_some, Decimal.value_trim]
    exact readsBack_of_inside (inside_of_gridPoint? hc)

end Binary64
end TablePlanner
