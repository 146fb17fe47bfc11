import TablePlanner.Json.Number

namespace TablePlanner.Preview

/-- Digits with a comma before each that has a whole number of groups from it to the end. The
first digit of a number never has one. -/
def groupDigits (first : Bool) : List Char → List Char
  | [] => []
  | d :: ds =>
    (if !first && (ds.length + 1) % 3 == 0 then [',', d] else [d]) ++ groupDigits false ds

def thousandsText (n : Int) : List Char :=
  (if n < 0 then ['-'] else []) ++ groupDigits true (Nat.toDigits 10 n.natAbs)

def thousands (n : Int) : String := String.ofList (thousandsText n)

end TablePlanner.Preview
