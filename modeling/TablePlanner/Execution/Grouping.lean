import TablePlanner.Execution.Note
import TablePlanner.Execution.Totals
import TablePlanner.Table.Basic

/-! Rows whose key cells compare equal form a group; a row with a null among them is in none. Groups
ascend and show the key cells of their first rows. An aggregation is accepted if its source exists,
unless it counts, and its name is new. -/
namespace TablePlanner
open Json

/-- The cell that kept a sum or mean from being taken. -/
structure NonNumeric where
  field : String
  op : Aggregate
  value : Value
deriving Repr

namespace Table

def knownColumns (t : Table) (names : List String) : List Nat :=
  names.foldl
    (fun picked name =>
      match t.columnIndex? name with
      | some i => if i ∈ picked then picked else picked ++ [i]
      | none => picked)
    []

def unknownNames (t : Table) (names : List String) : List String :=
  names.filter fun name => (t.columnIndex? name).isNone

def pickColumns (t : Table) (picked : List Nat) : List String :=
  picked.map fun i => t.columns.getD i ""

def pickCells (picked : List Nat) (row : Row) : Row := picked.map (cell row)

end Table

namespace Grouping

abbrev Key := List Value

def keyOrder : Key → Key → Ordering
  | a :: as, b :: bs => (Cell.order a b).then (keyOrder as bs)
  | [], [] => .eq
  | [], _ :: _ => .lt
  | _ :: _, [] => .gt

structure Group where
  key : Key
  rows : List Row
deriving Repr

def addRow (key : Key) (row : Row) : List Group → List Group
  | [] => [⟨key, [row]⟩]
  | g :: gs =>
    -- A scan from the least key on. Where the order of cells is not transitive, which group takes a
    -- row depends on the keys it is compared with, and another way to search may settle on another.
    match keyOrder key g.key with
    | .lt => ⟨key, [row]⟩ :: g :: gs
    | .eq => { g with rows := g.rows ++ [row] } :: gs
    | .gt => g :: addRow key row gs

def hasNullKey (keys : List Nat) (row : Row) : Bool := (Table.pickCells keys row).any (·.isNull)

def ofRows (keys : List Nat) (rows : List Row) : List Group :=
  (rows.filter (!hasNullKey keys ·)).foldl
    (fun groups row => addRow (Table.pickCells keys row) row groups) []

/-- An aggregation with the column it reads, `none` for the number of rows. -/
structure Accepted where
  aggregation : Aggregation
  source : Option Nat
deriving DecidableEq, Repr

def source? (t : Table) (a : Aggregation) : Option (Option Nat) :=
  if a.op = .count then some none else (t.columnIndex? a.field).map some

def accept (t : Table) : List String → List Aggregation → List Accepted × List Note
  | _, [] => ([], [])
  | columns, a :: as =>
    match source? t a with
    | none =>
      let (accepted, notes) := accept t columns as
      (accepted, .droppedAggregation a.field a.label :: notes)
    | some source =>
      if a.label ∈ columns then
        let (accepted, notes) := accept t columns as
        (accepted, .duplicateLabel a.label :: notes)
      else
        let (accepted, notes) := accept t (columns ++ [a.label]) as
        (⟨a, source⟩ :: accepted, notes)

def Accepted.value (a : Accepted) (rows : List Row) : Except NonNumeric Value :=
  match a.source with
  | none => .ok (.nat rows.length)
  | some i =>
    match a.aggregation.op.ofCells (rows.map (Table.cell · i)) with
    | .ok v => .ok v
    | .error v => .error ⟨a.aggregation.field, a.aggregation.op, v⟩

def Group.row (accepted : List Accepted) (g : Group) : Except NonNumeric Row := do
  return g.key ++ (← accepted.mapM (·.value g.rows))

end Grouping

namespace Table
open Grouping

def groupBy (t : Table) (keys : List String) (aggregations : List Aggregation) :
    Except NonNumeric (Table × List Note) :=
  let keyColumns := t.knownColumns keys
  if keyColumns.isEmpty then .ok (t, [.noGroupKeys keys])
  else
    let missing := t.unknownNames keys
    let names := t.pickColumns keyColumns
    let (accepted, notes) := accept t names aggregations
    let nulls := t.rows.countP (hasNullKey keyColumns)
    let notes := (if missing.isEmpty then [] else [.missingGroupKeys missing]) ++ notes ++
      (if nulls = 0 then [] else [.nullGroupKeys nulls])
    match (Grouping.ofRows keyColumns t.rows).mapM (·.row accepted) with
    | .ok rows => .ok (⟨names ++ accepted.map (·.aggregation.label), rows⟩, notes)
    | .error e => .error e

end Table
end TablePlanner
