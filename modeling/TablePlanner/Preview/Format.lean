import TablePlanner.Calendar.Layout
import TablePlanner.Preview.Thousands
import TablePlanner.Table.Basic
import TablePlanner.Text.Lowercase
import TablePlanner.Text.Search

namespace TablePlanner
open Json

namespace Preview

structure Rules where
  rowLimit : Nat
  /-- The share of the rows that have to be dates. Units have no bound: an infinite share is one
  whose product with any number of rows but zero overflows, and what is no number is zero. -/
  dateRatio : Binary64
  currencyTokens : List String
deriving DecidableEq, Repr

def half : Binary64 := ⟨false, Binary64.one / 2⟩

def Rules.standard : Rules := ⟨50, half, ["amount", "금액", "price", "비용", "amt"]⟩

/-- The number of dates that makes a column of `height` cells a date column: the rounded down
share of the rows, but at least one. It does not count above 64 bits. -/
def neededDates (height : Nat) (ratio : Binary64) : Nat :=
  let share :=
    match (Binary64.ofInt height).mul? ratio with
    | some x => min x.floorNat greatestNat64
    | none => if ratio.negative then 0 else greatestNat64
  max share 1

def isText : Value → Bool
  | .string _ => true
  | _ => false

def date? : Value → Option Date
  | .string s => Date.ofText? s
  | _ => none

def isDateColumn (ratio : Binary64) (cells : List Value) : Bool :=
  cells.all (fun v => v.isNull || isText v) && cells.any isText &&
    neededDates cells.length ratio ≤ cells.countP fun v => (date? v).isSome

def isCurrencyColumn (tokens : List String) (name : String) (cells : List Value) : Bool :=
  let lowered := Text.lowercase name
  tokens.any (Text.holds lowered) && cells.all fun v => v.isNull || v.isNumber

def dateCell (v : Value) : Value :=
  match date? v with
  | some date => .string date.render
  | none => .null

def wholeAmount (n : Number) : Int := max leastInt64 (min greatestInt64 n.binary64.roundAway)

def currencyCell : Value → Value
  | .number n => .string (thousands (wholeAmount n))
  | v => v

/-- How the cells of a column are shown, which only its name and its own cells decide. -/
def cellRule (rules : Rules) (name : String) (cells : List Value) : Value → Value :=
  if isDateColumn rules.dateRatio cells then dateCell
  else if isCurrencyColumn rules.currencyTokens name cells then currencyCell
  else id

end Preview

open Preview

def Table.preview (t : Table) (rules : Rules) : List Value :=
  let head := t.head rules.rowLimit
  let cellRules := head.columns.zipIdx.map fun (name, i) => cellRule rules name (head.columnCells i)
  head.rows.map fun row => Table.toRecord head.columns (List.zipWith (· ·) cellRules row)

end TablePlanner
