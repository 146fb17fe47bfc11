import TablePlanner.Json.Value
import TablePlanner.Numeric.Shortest
import TablePlanner.Order.StableSort

namespace TablePlanner

abbrev Tally := List (String × Nat)

namespace Tally

def count (t : Tally) (label : String) : Nat := (t.lookup label).getD 0

def add (t : Tally) (label : String) : Tally := Json.putMember label (t.count label + 1) t

theorem count_add_self (t : Tally) (label : String) :
    (t.add label).count label = t.count label + 1 := by
  simp [add, count, Json.lookup_putMember_self]

theorem count_add_of_ne (t : Tally) {label other : String} (h : other ≠ label) :
    (t.add label).count other = t.count other := by
  simp [add, count, Json.lookup_putMember_of_ne h]

end Tally

inductive TransformOutcome where
  | success
  | fallback
  | error
  | preview
deriving DecidableEq, Repr

def TransformOutcome.name : TransformOutcome → String
  | success => "success"
  | fallback => "fallback"
  | error => "error"
  | preview => "preview"

structure Metrics where
  validated : Tally
  planned : Tally
  transformed : Tally
  noops : Nat
deriving Repr

namespace Metrics

def empty : Metrics := ⟨[], [], [], 0⟩

def recordValidation (m : Metrics) (valid : Bool) : Metrics :=
  { m with validated := m.validated.add (if valid then "true" else "false") }

def recordPlan (m : Metrics) (detectors : List String) : Metrics :=
  { m with planned := detectors.foldl Tally.add m.planned }

def recordTransform (m : Metrics) (outcome : String) : Metrics :=
  { m with transformed := m.transformed.add outcome }

def recordNoops (m : Metrics) (count : Nat) : Metrics := { m with noops := m.noops + count }

def countText (n : Nat) : String :=
  let x := Binary64.ofInt (n % (greatestNat64 + 1) : Nat)
  if x.units = 0 then "0"
  else
    let d := Binary64.shortest x.units
    String.ofList (Nat.toDigits 10 d.digits ++ Json.Number.zeros d.exponent.toNat)

def escapeLabel (c : Char) : List Char :=
  if c = '\\' then ['\\', '\\']
  else if c = '\n' then ['\\', 'n']
  else if c = '"' then ['\\', '"']
  else [c]

def header (name help : String) : String :=
  "# HELP " ++ name ++ " " ++ help ++ "\n# TYPE " ++ name ++ " counter\n"

/-- A family with a label. Without any count it is not shown. -/
def familyText (name help label : String) (t : Tally) : String :=
  let sorted := stableSort (fun a b => compare a.1 b.1 == .lt) t
  let line (p : String × Nat) : String :=
    let value := String.ofList (p.1.toList.flatMap escapeLabel)
    name ++ "\x7b" ++ label ++ "=\"" ++ value ++ "\"\x7d " ++ countText p.2 ++ "\n"
  if t.isEmpty then "" else header name help ++ String.join (sorted.map line)

def text (m : Metrics) : String :=
  header "tabplan_noop_operations_total" "Operations skipped during execution" ++
    "tabplan_noop_operations_total " ++ countText m.noops ++ "\n" ++
    familyText "tabplan_plans_generated_total" "Plan tables generated, by detector" "detector"
      m.planned ++
    familyText "tabplan_prompts_validated_total" "Prompts run through the validator" "valid"
      m.validated ++
    familyText "tabplan_transforms_total" "Executed transforms, by outcome" "outcome" m.transformed

end Metrics
end TablePlanner
