import TablePlanner.Numeric.Binary64

/-! The shortest decimal that reads back lies between the midpoints to the neighbours of a number,
these included when the significand is even. If a point of a decimal grid lies there, so does one of
the two next to the number. Of two hits the nearer is taken, of two equally near ones the even. -/
namespace TablePlanner

/-- The magnitude `digits * 10 ^ exponent`. -/
structure Decimal where
  digits : Nat
  exponent : Int
deriving DecidableEq, Repr

namespace Decimal

def leading (d : Decimal) : Int := d.exponent + (Nat.toDigits 10 d.digits).length - 1

/-- The same magnitude without trailing zeros, of which at most `fuel` are dropped. -/
def trim : Nat → Decimal → Decimal
  | 0, d => d
  | fuel + 1, d =>
    if d.digits ≠ 0 ∧ d.digits % 10 = 0 then trim fuel ⟨d.digits / 10, d.exponent + 1⟩ else d

end Decimal

namespace Binary64

def evenSignificand (units : Nat) : Bool := units / spacing units % 2 == 0

/-- The midpoints to the neighbours of a magnitude, in quarter units. Below a power of two the
neighbour is half as far as above it, except where the spacing is already least. -/
def midpoints (units : Nat) : Nat × Nat :=
  let gap := spacing units
  let below := if units = Nat.pow 2 52 * gap ∧ 1 < gap then gap else 2 * gap
  (4 * units - below, 4 * units + 2 * gap)

/-- The point of the grid of multiples of `10 ^ grid` next to a magnitude that reads back as it. -/
def gridPoint? (units : Nat) (grid : Int) : Option Nat :=
  let power := Nat.pow 10 grid.natAbs
  let scale := if grid < 0 then power else 1
  let step := if grid < 0 then one else one * power
  let (low, high) := midpoints units
  let inside (c : Nat) : Bool :=
    if evenSignificand units then low * scale ≤ 4 * c * step && 4 * c * step ≤ high * scale
    else low * scale < 4 * c * step && 4 * c * step < high * scale
  let below := units * scale / step
  match inside below, inside (below + 1) with
  | false, false => none
  | true, false => some below
  | false, true => some (below + 1)
  | true, true =>
    match compare (2 * units * scale) ((2 * below + 1) * step) with
    | .lt => some below
    | .gt => some (below + 1)
    | .eq => some (below + below % 2)

def leadingExponent (units : Nat) : Int :=
  (Nat.toDigits 10 (units * Nat.pow 10 330 / one)).length - 331

/-- Seventeen digits always read back, so the last alternative is never reached. -/
def shortest (units : Nat) : Decimal :=
  let lead := leadingExponent units
  let attempt (count : Nat) : Option Decimal :=
    let grid := lead - count
    (gridPoint? units grid).map fun c => Decimal.trim 20 ⟨c, grid⟩
  ((List.range 17).findSome? attempt).getD ⟨units, -1074⟩

end Binary64
end TablePlanner
