import TablePlanner.Numeric.Range
import TablePlanner.Numeric.Shortest

/-! A literal without a fraction or an exponent is an integer if it fits into 64 bits, signed or
unsigned; every other one is a binary64 number, minus zero included. Texts keep the distinction: a
float always has a point or an exponent. -/
namespace TablePlanner.Json

inductive Number where
  | integer (n : Int)
  | float (x : Binary64)
deriving DecidableEq, Repr

namespace Number

/-- The integers that a literal can name: 64 bits, signed or unsigned. -/
def InRange (n : Int) : Prop := leastInt64 ≤ n ∧ n ≤ greatestNat64

instance (n : Int) : Decidable (InRange n) := inferInstanceAs (Decidable (_ ∧ _))

def Signed (n : Int) : Prop := leastInt64 ≤ n ∧ n ≤ greatestInt64

instance (n : Int) : Decidable (Signed n) := inferInstanceAs (Decidable (_ ∧ _))

def binary64 : Number → Binary64
  | integer n => .ofInt n
  | float x => x

/-- Integers compare exactly; against a float an integer is rounded first. -/
def order : Number → Number → Ordering
  | integer m, integer n => compare m n
  | x, y => x.binary64.order y.binary64

/-- Sameness of representation: an integer is never the same as a float. -/
def same : Number → Number → Bool
  | integer m, integer n => m == n
  | float x, float y => x.order y == .eq
  | _, _ => false

def intText (n : Int) : List Char :=
  if n < 0 then '-' :: Nat.toDigits 10 n.natAbs else Nat.toDigits 10 n.natAbs

def zeros (n : Nat) : List Char := List.replicate n '0'

/-- Magnitudes from `10 ^ -5` up to `10 ^ 16` are written out, all others with an exponent. -/
def decimalText (d : Decimal) : List Char :=
  let digits := Nat.toDigits 10 d.digits
  let lead := d.leading
  if lead < -5 ∨ 15 < lead then
    let fraction := digits.drop 1
    digits.take 1 ++ (if fraction.isEmpty then [] else '.' :: fraction) ++
      'e' :: (if lead < 0 then '-' else '+') :: Nat.toDigits 10 lead.natAbs
  else if 0 ≤ d.exponent then digits ++ zeros d.exponent.natAbs ++ ['.', '0']
  else if 0 ≤ lead then
    digits.take (lead.natAbs + 1) ++ '.' :: digits.drop (lead.natAbs + 1)
  else '0' :: '.' :: zeros (lead.natAbs - 1) ++ digits

def floatText (x : Binary64) : List Char :=
  (if x.negative then ['-'] else []) ++
    (if x.units = 0 then ['0', '.', '0'] else decimalText (Binary64.shortest x.units))

def text : Number → List Char
  | integer n => intText n
  | float x => floatText x

def exponentValue : List Char → Int
  | _ :: '-' :: ds => -(Nat.ofDigitChars 10 ds 0 : Int)
  | _ :: '+' :: ds => Nat.ofDigitChars 10 ds 0
  | _ :: ds => Nat.ofDigitChars 10 ds 0
  | [] => 0

def ofLiteral? (literal : List Char) : Option Number :=
  let negative := literal.head? == some '-'
  let body := if negative then literal.drop 1 else literal
  let whole := body.takeWhile Char.isDigit
  match body.dropWhile Char.isDigit with
  | [] =>
    let magnitude := Nat.ofDigitChars 10 whole 0
    let value : Int := if negative then -(magnitude : Int) else magnitude
    if InRange value ∧ ¬(negative = true ∧ magnitude = 0) then some (integer value)
    else (Binary64.ofDecimal? negative magnitude 0).map float
  | '.' :: tail =>
    let fraction := tail.takeWhile Char.isDigit
    let exponent := exponentValue (tail.dropWhile Char.isDigit)
    (Binary64.ofDecimal? negative (Nat.ofDigitChars 10 (whole ++ fraction) 0)
      (exponent - fraction.length)).map float
  | tail =>
    (Binary64.ofDecimal? negative (Nat.ofDigitChars 10 whole 0) (exponentValue tail)).map float

end Number
end TablePlanner.Json
