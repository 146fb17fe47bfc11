import TablePlanner.Calendar.Date
import TablePlanner.Text.Blank

/-! Reading dates from text: first as an Internet timestamp, then in the layouts with a time of day,
then in those without. The first that fits the whole text and names a day that exists decides. A
timestamp gives the date as written, whatever its offset. -/
namespace TablePlanner

namespace Calendar

/-- The numbers that a text names. A layout without a time of day leaves it at midnight. -/
structure Fields where
  year : Int
  month : Nat
  day : Nat
  hour : Nat
  minute : Nat
  second : Nat
deriving DecidableEq, Repr

def Fields.blank : Fields := ⟨0, 0, 0, 0, 0, 0⟩

/-- The date, if it exists and the time of day does too. A minute may have a leap second. -/
def Fields.date? (f : Fields) : Option Date :=
  let date : Date := ⟨f.year, f.month, f.day⟩
  if date.Valid ∧ f.hour < 24 ∧ f.minute < 60 ∧ f.second ≤ 60 then some date else none

inductive Item where
  | year
  | month
  | day
  | hour
  | minute
  | second
  | literal (c : Char)
  | space
deriving DecidableEq, Repr

abbrev Layout := List Item

def readNumber (width : Nat) (cs : List Char) : Option (Nat × List Char) :=
  let digits := (cs.take width).takeWhile Char.isDigit
  if digits.isEmpty then none else some (Nat.ofDigitChars 10 digits 0, cs.drop digits.length)

/-- A year of up to four digits, or a sign and a year of any number of digits. -/
def readYear : List Char → Option (Int × List Char)
  | '-' :: cs => (readNumber cs.length cs).map fun (n, rest) => (-(n : Int), rest)
  | '+' :: cs => (readNumber cs.length cs).map fun (n, rest) => ((n : Int), rest)
  | cs => (readNumber 4 cs).map fun (n, rest) => ((n : Int), rest)

def readLiteral (c : Char) : List Char → Option (List Char)
  | [] => none
  | d :: cs => if d = c then some cs else none

/-- White space may stand before each number, and any amount of it for a space. -/
def readItem (item : Item) (f : Fields) (cs : List Char) : Option (Fields × List Char) :=
  let pair (set : Nat → Fields) : Option (Fields × List Char) :=
    (readNumber 2 (Text.skipBlanks cs)).map fun (n, rest) => (set n, rest)
  match item with
  | .year => (readYear (Text.skipBlanks cs)).map fun (y, rest) => ({ f with year := y }, rest)
  | .month => pair fun n => { f with month := n }
  | .day => pair fun n => { f with day := n }
  | .hour => pair fun n => { f with hour := n }
  | .minute => pair fun n => { f with minute := n }
  | .second => pair fun n => { f with second := n }
  | .literal c => (readLiteral c cs).map fun rest => (f, rest)
  | .space => some (f, Text.skipBlanks cs)

def readItems : Layout → Fields → List Char → Option (Fields × List Char)
  | [], f, cs => some (f, cs)
  | item :: items, f, cs =>
    match readItem item f cs with
    | some (f, rest) => readItems items f rest
    | none => none

def Layout.date? (layout : Layout) (cs : List Char) : Option Date :=
  match readItems layout .blank cs with
  | some (f, []) => f.date?
  | _ => none

def dateItems (separator : Char) : Layout :=
  [.year, .literal separator, .month, .literal separator, .day]

def timeItems : Layout := [.hour, .literal ':', .minute, .literal ':', .second]

def layouts : List Layout :=
  [dateItems '-' ++ .space :: timeItems, dateItems '-' ++ .literal 'T' :: timeItems,
   dateItems '/' ++ .space :: timeItems, dateItems '-', dateItems '/', dateItems '.']

def readFixed (width : Nat) (cs : List Char) : Option (Nat × List Char) :=
  let digits := cs.take width
  if digits.length = width ∧ digits.all Char.isDigit = true then
    some (Nat.ofDigitChars 10 digits 0, cs.drop width)
  else none

def isTimeMark (c : Char) : Bool := c == 'T' || c == 't' || c == ' '

def readFraction : List Char → Option (List Char)
  | '.' :: cs =>
    let rest := cs.dropWhile Char.isDigit
    if rest.length < cs.length then some rest else none
  | cs => some cs

/-- An offset of less than a day, or the letter for none. -/
def readOffset : List Char → Option (List Char)
  | [] => none
  | c :: cs =>
    if c = 'Z' ∨ c = 'z' then some cs
    else if c = '+' ∨ c = '-' ∨ c = '\u2212' then do
      let (hours, cs) ← readFixed 2 cs
      let cs ← readLiteral ':' cs
      let (minutes, cs) ← readFixed 2 cs
      if hours < 24 ∧ minutes < 60 then some cs else none
    else none

def timestamp? (cs : List Char) : Option Date := do
  let (year, cs) ← readFixed 4 cs
  let cs ← readLiteral '-' cs
  let (month, cs) ← readFixed 2 cs
  let cs ← readLiteral '-' cs
  let (day, cs) ← readFixed 2 cs
  let mark ← cs.head?
  if !isTimeMark mark then none
  let (hour, cs) ← readFixed 2 (cs.drop 1)
  let cs ← readLiteral ':' cs
  let (minute, cs) ← readFixed 2 cs
  let cs ← readLiteral ':' cs
  let (second, cs) ← readFixed 2 cs
  let cs ← readFraction cs
  let cs ← readOffset cs
  if cs.isEmpty then Fields.date? ⟨year, month, day, hour, minute, second⟩ else none

end Calendar

def Date.ofText? (s : String) : Option Date :=
  let cs := Text.trim s.toList
  match Calendar.timestamp? cs with
  | some date => some date
  | none => Calendar.layouts.findSome? (·.date? cs)

end TablePlanner
