import TablePlanner.Prompt.Detector
import TablePlanner.Prompt.Validity

/-! Detectors are asked in order; once there is a recipe, only the unconditional ones still are. A
recipe whose identifier is empty or taken is dropped. A plan that stays empty gets the default
recipe, which passes the source on. -/
namespace TablePlanner.Prompt

structure Validation where
  rejection : Option Rejection
deriving DecidableEq, Repr

def Validation.isValid (v : Validation) : Bool := v.rejection.isNone

open Json in
def Validation.toJson (v : Validation) : Value :=
  .object (("valid", .bool v.isValid) ::
    match v.rejection with
    | some r => [("reason", .string r.message)]
    | none => [])

def defaultRecipe : Recipe := ⟨defaultRecipeId, "전체 데이터", [.selectAll]⟩

def defaultName : String := "default"

/-- A plan with the names of the detectors that gave its recipes, in the order of the recipes. -/
structure Draft where
  plan : Plan
  fired : List String

def Draft.push (d : Draft) (name : String) (r : Recipe) : Draft :=
  match d.plan.push r with
  | .ok plan => ⟨plan, d.fired ++ [name]⟩
  | .error _ => d

def Draft.ask (ctx : Context) (d : Draft) (detector : Detector) : Draft :=
  if !d.plan.recipes.isEmpty && !detector.unconditional then d
  else
    match detector.detect ctx with
    | some r => d.push detector.name r
    | none => d

structure Planner where
  candidates : List Int
  rules : ValidityRules
  detectors : List Detector

def standardCandidates : List Int := [50, 20, 10, 5]

namespace Planner

def standard : Planner := ⟨standardCandidates, .standard, Detector.standard⟩

def validate (p : Planner) (prompt : String) : Validation := ⟨rejection? p.rules prompt⟩

structure Proposal where
  plan : Plan
  validation : Validation
  fired : List String

def propose (p : Planner) (prompt : String) (schema : Schema) : Proposal :=
  let validation := p.validate prompt
  let ctx := Context.of prompt schema p.candidates
  let draft := p.detectors.foldl (Draft.ask ctx) ⟨.empty validation.isValid, []⟩
  let draft := if draft.plan.recipes.isEmpty then draft.push defaultName defaultRecipe else draft
  ⟨draft.plan, validation, draft.fired⟩

end Planner
end TablePlanner.Prompt
