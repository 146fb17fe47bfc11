import TablePlanner.Json.Value

/-! How the cells of a table compare. Filters compare numbers by value and all else by structure.
Sorting and grouping go by kind, then by value, code points or compact text, and nulls come last in
both directions of a sort. -/
namespace TablePlanner.Cell
open Json

def equal : Value → Value → Bool
  | .number x, .number y => x.order y == .eq
  | a, b => a.same b

def rank : Value → Nat
  | .null => 0
  | .bool _ => 1
  | .number _ => 2
  | .string _ => 3
  | .array _ => 4
  | .object _ => 5

def order : Value → Value → Ordering
  | .bool a, .bool b => compare a b
  | .number x, .number y => x.order y
  | .string s, .string t => compare s t
  | .array as, .array bs => compare (Value.array as).render (Value.array bs).render
  | .object as, .object bs => compare (Value.object as).render (Value.object bs).render
  | a, b => compare (rank a) (rank b)

def sortOrder (descending : Bool) (a b : Value) : Ordering :=
  match a.isNull, b.isNull with
  | true, true => .eq
  | true, false => .gt
  | false, true => .lt
  | false, false => if descending then order b a else order a b

/-- The first of the least cells. -/
def least? : List Value → Option Value
  | [] => none
  | v :: vs => some (vs.foldl (fun m v => if order m v = .gt then v else m) v)

/-- The last of the greatest cells. -/
def greatest? : List Value → Option Value
  | [] => none
  | v :: vs => some (vs.foldl (fun m v => if order m v = .gt then m else v) v)

end TablePlanner.Cell
