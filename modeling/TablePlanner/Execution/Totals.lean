import TablePlanner.Cell.Order
import TablePlanner.Plan.Basic

/-! Aggregates pass over nulls. A sum is exact while every cell and every partial sum is an integer
of 64 signed bits; else it is the float sum, taken from zero in the order of the cells. -/
namespace TablePlanner
open Json

structure Totals where
  /-- The exact sum, `none` once a cell or a partial sum is no integer of 64 signed bits. -/
  whole : Option Int
  /-- The float sum, `none` once it overflows. -/
  float : Option Binary64
  count : Nat
deriving DecidableEq, Repr

namespace Totals

def zero : Totals := ⟨some 0, some .zero, 0⟩

def addWhole : Option Int → Number → Option Int
  | some a, .integer b => if Number.Signed b ∧ Number.Signed (a + b) then some (a + b) else none
  | _, _ => none

def add (t : Totals) (n : Number) : Totals :=
  ⟨addWhole t.whole n, t.float.bind (·.add? n.binary64), t.count + 1⟩

def addCell (t : Totals) : Value → Except Value Totals
  | .number n => .ok (t.add n)
  | v => .error v

def ofCells (cells : List Value) : Except Value Totals := cells.foldlM addCell zero

def sum (t : Totals) : Value :=
  match t.whole with
  | some total => .int total
  | none => .ofFloat t.float

def mean (t : Totals) : Value :=
  if t.count = 0 then .null else .ofFloat (t.float.bind (·.div? (.ofInt t.count)))

end Totals

def Aggregate.ofCells (op : Aggregate) (cells : List Value) : Except Value Value :=
  let present := cells.filter (!·.isNull)
  match op with
  | sum => Totals.sum <$> Totals.ofCells present
  | mean => Totals.mean <$> Totals.ofCells present
  | count => .ok (.nat present.length)
  | min => .ok ((Cell.least? present).getD .null)
  | max => .ok ((Cell.greatest? present).getD .null)

end TablePlanner
