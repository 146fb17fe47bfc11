import TablePlanner.Json.Value

/-! A plan derives result tables from one source table by recipes, each shown in a section of the
layout. Adding a recipe keeps identifiers distinct and not empty; a plan that came from elsewhere is
checked for the same. -/
namespace TablePlanner

inductive Aggregate where
  | sum
  | count
  | mean
  | min
  | max
deriving DecidableEq, Repr

def Aggregate.name : Aggregate → String
  | sum => "SUM"
  | count => "COUNT"
  | mean => "MEAN"
  | min => "MIN"
  | max => "MAX"

structure Aggregation where
  field : String
  op : Aggregate
  label : String
deriving DecidableEq, Repr

inductive Direction where
  | ascending
  | descending
deriving DecidableEq, Repr

def Direction.name : Direction → String
  | ascending => "ASC"
  | descending => "DESC"

inductive Operation where
  /-- Keeps the named columns in the order of the names; no names at all keep every column. -/
  | select (fields : List String)
  | filter (field : String) (value : Json.Value)
  | groupBy (keys : List String) (aggregations : List Aggregation)
  | orderBy (field : String) (direction : Direction)
  | limit (count : Int)
deriving Repr

def Operation.kind : Operation → String
  | select _ => "SELECT"
  | filter .. => "FILTER"
  | groupBy .. => "GROUP_BY"
  | orderBy .. => "ORDER_BY"
  | limit _ => "LIMIT"

def Operation.selectAll : Operation := .select []

structure Recipe where
  id : String
  title : String
  operations : List Operation
deriving Repr

/-- The identifier of the recipe that passes its source on unchanged. -/
def defaultRecipeId : String := "default_table"

def Recipe.isDefault (r : Recipe) : Bool := r.id == defaultRecipeId

structure Section where
  title : String
  content : List String
deriving DecidableEq, Repr

structure Plan where
  recipes : List Recipe
  layout : List Section
  isValidRequest : Bool
deriving Repr

inductive PlanError where
  | duplicateId (id : String)
  | emptyId
deriving DecidableEq, Repr

def PlanError.message : PlanError → String
  | duplicateId id => "Duplicate table id: " ++ id
  | emptyId => "Table id must not be empty"

namespace Plan

def empty (isValidRequest : Bool) : Plan := ⟨[], [], isValidRequest⟩

def ids (p : Plan) : List String := p.recipes.map (·.id)

def recipe? (p : Plan) (id : String) : Option Recipe := p.recipes.find? (·.id == id)

def push (p : Plan) (r : Recipe) : Except PlanError Plan :=
  if r.id = "" then .error .emptyId
  else if (p.recipe? r.id).isSome then .error (.duplicateId r.id)
  else .ok
    { p with recipes := p.recipes ++ [r], layout := p.layout ++ [⟨r.title, [r.id]⟩] }

theorem ids_push {p q : Plan} {r : Recipe} (h : p.push r = .ok q) : q.ids = p.ids ++ [r.id] := by
  unfold push at h
  split at h
  · cases h
  · split at h
    · cases h
    · cases h
      simp [ids]

def checkFrom (seen : List String) : List Recipe → Except PlanError Unit
  | [] => .ok ()
  | r :: rs =>
    if r.id = "" then .error .emptyId
    else if r.id ∈ seen then .error (.duplicateId r.id)
    else checkFrom (r.id :: seen) rs

def check (p : Plan) : Except PlanError Unit := checkFrom [] p.recipes

end Plan
end TablePlanner
