/-! A finite binary64 number is a sign and a magnitude in units of 2^-1074. Every operation is exact
arithmetic on whole numbers and one rounding to 53 significant bits, halves to even. A result beyond
the greatest finite magnitude is `none`. -/
namespace TablePlanner

structure Binary64 where
  negative : Bool
  units : Nat
deriving DecidableEq, Repr

/-- The quotient `num / den` as the nearest whole number, a half to the even one. -/
def roundHalfEven (num den : Nat) : Nat :=
  let q := num / den
  let r := num % den
  if 2 * r < den then q
  else if den < 2 * r then q + 1
  else q + q % 2

theorem roundHalfEven_mul (q : Nat) {den : Nat} (h : 0 < den) :
    roundHalfEven (q * den) den = q := by
  simp [roundHalfEven, Nat.mul_div_cancel q h, h]

namespace Binary64

def one : Nat := Nat.pow 2 1074

/-- The least magnitude that is too great for the format. -/
def overflow : Nat := Nat.pow 2 1024 * one

/-- The distance between neighbouring magnitudes of this size, which have 53 significant bits. -/
def spacing (units : Nat) : Nat := Nat.pow 2 (units.log2 - 52)

def Representable (units : Nat) : Prop := spacing units ∣ units ∧ units < overflow

/-- The multiple of the spacing of `num / den` that lies nearest to it. -/
def nearest (num den : Nat) : Nat :=
  let step := spacing (num / den)
  roundHalfEven num (den * step) * step

theorem nearest_of_dvd {units : Nat} (h : spacing units ∣ units) : nearest units 1 = units := by
  obtain ⟨q, hq⟩ := h
  have hpos : 0 < spacing units := Nat.two_pow_pos _
  simp only [nearest, Nat.div_one, Nat.one_mul]
  conv => lhs; arg 1; arg 1; rw [hq, Nat.mul_comm]
  rw [roundHalfEven_mul _ hpos, Nat.mul_comm]
  exact hq.symm

theorem nearest_of_representable {units : Nat} (h : Representable units) :
    nearest units 1 = units := nearest_of_dvd h.1

def ofRatio? (negative : Bool) (num den : Nat) : Option Binary64 :=
  let units := nearest num den
  if units < overflow then some ⟨negative, units⟩ else none

def zero : Binary64 := ⟨false, 0⟩

def ofInt (n : Int) : Binary64 := ⟨decide (n < 0), nearest (n.natAbs * one) 1⟩

/-- The nearest number to `± digits * 10 ^ exponent`. Exponents that settle the answer by their
size alone are answered without raising ten to them. -/
def ofDecimal? (negative : Bool) (digits : Nat) (exponent : Int) : Option Binary64 :=
  let size := exponent + (Nat.toDigits 10 digits).length
  if digits = 0 ∨ size ≤ -324 then some ⟨negative, 0⟩
  else if 310 ≤ size then none
  else if exponent < 0 then ofRatio? negative (digits * one) (Nat.pow 10 exponent.natAbs)
  else ofRatio? negative (digits * Nat.pow 10 exponent.natAbs * one) 1

def signedUnits (x : Binary64) : Int := if x.negative then -(x.units : Int) else x.units

def order (x y : Binary64) : Ordering := compare x.signedUnits y.signedUnits

/-- An exact sum of zero is positive unless both terms are negative zeros. -/
def add? (x y : Binary64) : Option Binary64 :=
  let sum := x.signedUnits + y.signedUnits
  if sum = 0 then some ⟨x.negative && y.negative, 0⟩
  else ofRatio? (decide (sum < 0)) sum.natAbs 1

def mul? (x y : Binary64) : Option Binary64 :=
  ofRatio? (x.negative != y.negative) (x.units * y.units) one

def div? (x y : Binary64) : Option Binary64 :=
  ofRatio? (x.negative != y.negative) (x.units * one) y.units

def roundAway (x : Binary64) : Int :=
  let magnitude : Nat := (2 * x.units + one) / (2 * one)
  if x.negative then -(magnitude : Int) else magnitude

/-- The integer part of a number that is not negative, zero for one that is. -/
def floorNat (x : Binary64) : Nat := if x.negative then 0 else x.units / one

end Binary64
end TablePlanner
