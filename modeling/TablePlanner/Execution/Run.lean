import TablePlanner.Execution.Grouping
import TablePlanner.Order.StableSort

namespace TablePlanner
open Json

inductive ExecutionError where
  | nonNumeric (table : String) (cell : NonNumeric)
  | invalidPlan (error : PlanError)
deriving Repr

def ExecutionError.message : ExecutionError → String
  | nonNumeric table cell =>
    "Table '" ++ table ++ "': cannot " ++ cell.op.name ++ " non-numeric value " ++
      cell.value.render ++ " in column '" ++ cell.field ++ "'"
  | invalidPlan error => "Invalid plan: " ++ error.message

namespace Table

def select (t : Table) (fields : List String) : Table × List Note :=
  if fields.isEmpty then (t, [])
  else
    let picked := t.knownColumns fields
    let unknown := t.unknownNames fields
    if picked.isEmpty then (t, [.emptySelection fields])
    else
      (⟨t.pickColumns picked, t.rows.map (pickCells picked)⟩,
        if unknown.isEmpty then [] else [.unknownFields unknown])

def filter (t : Table) (field : String) (value : Value) : Table × List Note :=
  match t.columnIndex? field with
  | none => (t, [.missingField field])
  | some i => ({ t with rows := t.rows.filter fun row => Cell.equal (cell row i) value }, [])

def rowLess (index : Nat) (direction : Direction) (a b : Row) : Bool :=
  Cell.sortOrder (direction == .descending) (cell a index) (cell b index) == .lt

def orderBy (t : Table) (field : String) (direction : Direction) : Table × List Note :=
  match t.columnIndex? field with
  | none => (t, [.missingField field])
  | some i => ({ t with rows := stableSort (rowLess i direction) t.rows }, [])

def limit (t : Table) (count : Int) : Table × List Note :=
  if count ≤ 0 then (t, [.nonPositiveLimit count]) else (t.head count.toNat, [])

end Table

def Operation.apply (op : Operation) (t : Table) : Except NonNumeric (Table × List Note) :=
  match op with
  | select fields => .ok (t.select fields)
  | filter field value => .ok (t.filter field value)
  | groupBy keys aggregations => t.groupBy keys aggregations
  | orderBy field direction => .ok (t.orderBy field direction)
  | limit count => .ok (t.limit count)

def runFrom (id : String) (index : Nat) (t : Table) :
    List Operation → Except ExecutionError (Table × List Diagnostic)
  | [] => .ok (t, [])
  | op :: ops =>
    match op.apply t with
    | .error cell => .error (.nonNumeric id cell)
    | .ok (t, notes) => do
      let (result, trace) ← runFrom id (index + 1) t ops
      return (result, notes.map (⟨id, index, op.kind, ·⟩) ++ trace)

def Recipe.run (r : Recipe) (source : Table) : Except ExecutionError (Table × List Diagnostic) :=
  runFrom r.id 0 source r.operations

/-- The results of a plan in its order, each under its recipe's identifier, and all notes. -/
structure Outcome where
  results : List (String × Table)
  trace : List Diagnostic
deriving Repr

namespace Outcome

def get? (o : Outcome) (id : String) : Option Table := o.results.lookup id

def firstNonEmpty? (o : Outcome) : Option (String × Table) := o.results.find? (!·.2.isEmpty)

end Outcome

def runRecipes (source : Table) : List Recipe → Except ExecutionError Outcome
  | [] => .ok ⟨[], []⟩
  | r :: rs => do
    let (result, trace) ← r.run source
    let rest ← runRecipes source rs
    return ⟨(r.id, result) :: rest.results, trace ++ rest.trace⟩

def Plan.run (p : Plan) (source : Table) : Except ExecutionError Outcome :=
  runRecipes source p.recipes

end TablePlanner
