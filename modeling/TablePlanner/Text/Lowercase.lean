import TablePlanner.Text.CaseData

/-! The full lowercase mapping goes by single characters but for one capital with a form of two and
for a capital sigma, which is final after a letter with case and not before one, whatever marks
stand between. -/
namespace TablePlanner.Text

def inRanges (ranges : List (Nat × Nat)) (c : Char) : Bool :=
  ranges.any fun r => r.1 ≤ c.toNat && c.toNat ≤ r.2

def CaseRun.contains (run : CaseRun) (n : Nat) : Bool :=
  run.first ≤ n && n ≤ run.last && (n - run.first) % run.step == 0

def lowerSimple (c : Char) : Char :=
  if c.toNat < 0x80 then c.toLower
  else
    match lowercaseRuns.find? (·.contains c.toNat) with
    | some run => Char.ofNat (c.toNat + run.offset).toNat
    | none => c

def lowerChar (c : Char) : List Char :=
  if c = 'İ' then ['i', '\u0307'] else [lowerSimple c]

def leadsToCased : List Char → Bool
  | [] => false
  | c :: cs => if inRanges caseIgnorableRanges c then leadsToCased cs else inRanges casedRanges c

/-- The lowercase form of a text that stands after `before`, whose last character comes first. -/
def lowerAfter (before : List Char) : List Char → List Char
  | [] => []
  | c :: cs =>
    let form :=
      if c = 'Σ' then [if leadsToCased before && !leadsToCased cs then 'ς' else 'σ']
      else lowerChar c
    form ++ lowerAfter (c :: before) cs

def lower (cs : List Char) : List Char := lowerAfter [] cs

def lowercase (s : String) : String := String.ofList (lower s.toList)

end TablePlanner.Text
