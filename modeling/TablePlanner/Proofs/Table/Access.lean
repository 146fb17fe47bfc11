import TablePlanner.Preview.Format
import TablePlanner.Proofs.Table.WellFormed

/-! The operations once more, with every access by index checked. On a well-formed table they come
to the same as the unchecked ones, so the null standing for a cell out of range is never read. -/
namespace TablePlanner
open Json

theorem mapM_eq_some_map {f : α → Option β} {g : α → β} {xs : List α}
    (h : ∀ x ∈ xs, f x = some (g x)) : xs.mapM f = some (xs.map g) := by
  induction xs with
  | nil => rfl
  | cons x xs ih =>
    rw [List.mapM_cons, h x (by simp), ih fun y hy => h y (List.mem_cons_of_mem _ hy)]
    rfl

theorem run_mapM_eq_some {f : α → ExceptT ε Option β} {g : α → Except ε β} {xs : List α}
    (h : ∀ x ∈ xs, (f x).run = some (g x)) : (xs.mapM f).run = some (xs.mapM g) := by
  induction xs with
  | nil => rfl
  | cons x xs ih =>
    have hx : f x = some (g x) := h x (by simp)
    have hxs : xs.mapM f = some (xs.mapM g) := ih fun y hy => h y (List.mem_cons_of_mem _ hy)
    rw [List.mapM_cons, List.mapM_cons, hx, hxs]
    cases g x with
    | error e => rfl
    | ok y =>
      cases xs.mapM g <;> rfl

theorem lift_some_bind (a : α) (f : α → ExceptT ε Option β) :
    (liftM (some a) >>= f) = f a := by
  rw [← Option.pure_def, liftM_pure, pure_bind]

theorem filterM_eq_some_filter {f : α → Option Bool} {g : α → Bool} {xs : List α}
    (h : ∀ x ∈ xs, f x = some (g x)) : xs.filterM f = some (xs.filter g) := by
  have collected : ∀ (xs kept : List α), (∀ x ∈ xs, f x = some (g x)) →
      xs.filterAuxM f kept = some ((xs.filter g).reverse ++ kept) := by
    intro xs
    induction xs with
    | nil => exact fun _ _ => rfl
    | cons x xs ih =>
      intro kept h
      have hrest := ih (cond (g x) (x :: kept) kept) fun y hy => h y (List.mem_cons_of_mem _ hy)
      rw [List.filterAuxM, h x (by simp)]
      refine hrest.trans ?_
      cases hx : g x <;> simp [hx]
  rw [List.filterM, collected xs [] h, List.append_nil]
  exact congrArg some (List.reverse_reverse _)

section
variable (less : α → α → Option Bool)

def insertBackwardChecked (x : α) : List α → Option (List α)
  | [] => some [x]
  | y :: ys => do
    if ← less x y then return y :: (← insertBackwardChecked x ys) else return x :: y :: ys

def stableSortChecked (xs : List α) : Option (List α) :=
  List.reverse <$> xs.foldlM (fun sorted x => insertBackwardChecked less x sorted) []

end

theorem insertBackwardChecked_eq_some {lessChecked : α → α → Option Bool} {less : α → α → Bool}
    {x : α} {ys : List α} (h : ∀ y ∈ ys, lessChecked x y = some (less x y)) :
    insertBackwardChecked lessChecked x ys = some (insertBackward less x ys) := by
  induction ys with
  | nil => rfl
  | cons y ys ih =>
    have hrest := ih fun z hz => h z (List.mem_cons_of_mem _ hz)
    simp only [insertBackwardChecked, insertBackward, h y (by simp), hrest]
    cases less x y <;> rfl

theorem stableSortChecked_eq_some {lessChecked : α → α → Option Bool} {less : α → α → Bool}
    {xs : List α} (h : ∀ x ∈ xs, ∀ y ∈ xs, lessChecked x y = some (less x y)) :
    stableSortChecked lessChecked xs = some (stableSort less xs) := by
  have collected : ∀ rest sorted : List α, (∀ x ∈ rest, x ∈ xs) → (∀ y ∈ sorted, y ∈ xs) →
      rest.foldlM (fun sorted x => insertBackwardChecked lessChecked x sorted) sorted =
        some (rest.foldl (fun sorted x => insertBackward less x sorted) sorted) := by
    intro rest
    induction rest with
    | nil => exact fun _ _ _ => rfl
    | cons x rest ih =>
      intro sorted hrest hsorted
      have hx := hrest x (by simp)
      have hinsert :
          insertBackwardChecked lessChecked x sorted = some (insertBackward less x sorted) :=
        insertBackwardChecked_eq_some fun y hy => h x hx y (hsorted y hy)
      rw [List.foldlM_cons, hinsert, List.foldl_cons]
      refine ih _ (fun y hy => hrest y (List.mem_cons_of_mem _ hy)) ?_
      intro y hy
      rcases List.mem_cons.1 ((insertBackward_perm less x sorted).mem_iff.1 hy) with rfl | hy
      · exact hx
      · exact hsorted y hy
  unfold stableSortChecked stableSort
  rw [collected xs [] (fun _ hx => hx) (by simp)]
  rfl

namespace Table

def pickCellsChecked (picked : List Nat) (row : Row) : Option Row := picked.mapM fun i => row[i]?

def pickColumnsChecked (t : Table) (picked : List Nat) : Option (List String) :=
  picked.mapM fun i => t.columns[i]?

def cellsChecked (index : Nat) (rows : List Row) : Option (List Value) :=
  rows.mapM fun row => row[index]?

def selectChecked (t : Table) (fields : List String) : Option (Table × List Note) :=
  if fields.isEmpty then some (t, [])
  else
    let picked := t.knownColumns fields
    let unknown := t.unknownNames fields
    if picked.isEmpty then some (t, [.emptySelection fields])
    else do
      let columns ← t.pickColumnsChecked picked
      let rows ← t.rows.mapM (pickCellsChecked picked)
      return (⟨columns, rows⟩, if unknown.isEmpty then [] else [.unknownFields unknown])

def filterChecked (t : Table) (field : String) (value : Value) : Option (Table × List Note) :=
  match t.columnIndex? field with
  | none => some (t, [.missingField field])
  | some i => do
    let rows ← t.rows.filterM fun row => return Cell.equal (← row[i]?) value
    return ({ t with rows := rows }, [])

def rowLessChecked (index : Nat) (direction : Direction) (a b : Row) : Option Bool := do
  return Cell.sortOrder (direction == .descending) (← a[index]?) (← b[index]?) == .lt

def orderByChecked (t : Table) (field : String) (direction : Direction) :
    Option (Table × List Note) :=
  match t.columnIndex? field with
  | none => some (t, [.missingField field])
  | some i => do
    let rows ← stableSortChecked (rowLessChecked i direction) t.rows
    return ({ t with rows := rows }, [])

end Table

namespace Grouping

def keyedChecked (keys : List Nat) (rows : List Row) : Option (List (Key × Row)) :=
  rows.mapM fun row => return (← Table.pickCellsChecked keys row, row)

def ofKeyed (keyed : List (Key × Row)) : List Group :=
  (keyed.filter fun k => !k.1.any (·.isNull)).foldl (fun groups k => addRow k.1 k.2 groups) []

def Accepted.valueChecked (a : Accepted) (rows : List Row) : ExceptT NonNumeric Option Value :=
  match a.source with
  | none => return .nat rows.length
  | some i => do
    let cells ← Table.cellsChecked i rows
    match a.aggregation.op.ofCells cells with
    | .ok v => return v
    | .error v => throw ⟨a.aggregation.field, a.aggregation.op, v⟩

def Group.rowChecked (accepted : List Accepted) (g : Group) : ExceptT NonNumeric Option Row := do
  return g.key ++ (← accepted.mapM (·.valueChecked g.rows))

end Grouping

namespace Table
open Grouping

def groupByChecked (t : Table) (keys : List String) (aggregations : List Aggregation) :
    ExceptT NonNumeric Option (Table × List Note) :=
  let keyColumns := t.knownColumns keys
  if keyColumns.isEmpty then return (t, [.noGroupKeys keys])
  else do
    let missing := t.unknownNames keys
    let names ← t.pickColumnsChecked keyColumns
    let (accepted, notes) := accept t names aggregations
    let keyed ← keyedChecked keyColumns t.rows
    let nulls := keyed.countP fun k => k.1.any (·.isNull)
    let notes := (if missing.isEmpty then [] else [.missingGroupKeys missing]) ++ notes ++
      (if nulls = 0 then [] else [.nullGroupKeys nulls])
    let rows ← (ofKeyed keyed).mapM (·.rowChecked accepted)
    return (⟨names ++ accepted.map (·.aggregation.label), rows⟩, notes)

end Table

def Operation.applyChecked (op : Operation) (t : Table) :
    ExceptT NonNumeric Option (Table × List Note) :=
  match op with
  | select fields => t.selectChecked fields
  | filter field value => t.filterChecked field value
  | groupBy keys aggregations => t.groupByChecked keys aggregations
  | orderBy field direction => t.orderByChecked field direction
  | limit count => return t.limit count

def runFromChecked (id : String) (index : Nat) (t : Table) :
    List Operation → ExceptT ExecutionError Option (Table × List Diagnostic)
  | [] => return (t, [])
  | op :: ops => do
    let (t, notes) ← (op.applyChecked t).adapt (.nonNumeric id)
    let (result, trace) ← runFromChecked id (index + 1) t ops
    return (result, notes.map (⟨id, index, op.kind, ·⟩) ++ trace)

def runRecipesChecked (source : Table) : List Recipe → ExceptT ExecutionError Option Outcome
  | [] => return ⟨[], []⟩
  | r :: rs => do
    let (result, trace) ← runFromChecked r.id 0 source r.operations
    let rest ← runRecipesChecked source rs
    return ⟨(r.id, result) :: rest.results, trace ++ rest.trace⟩

def Plan.runChecked (p : Plan) (source : Table) : ExceptT ExecutionError Option Outcome :=
  runRecipesChecked source p.recipes

open Preview in
def Table.previewChecked (t : Table) (rules : Rules) : Option (List Value) :=
  let head := t.head rules.rowLimit
  let cellRules := head.columns.zipIdx.map fun (name, i) => cellRule rules name (head.columnCells i)
  head.rows.mapM fun row => do
    let shown ← cellRules.zipIdx.mapM fun (rule, i) => rule <$> row[i]?
    return Table.toRecord head.columns shown

namespace Table

theorem getElem?_eq_cell {row : Row} {i : Nat} (h : i < row.length) :
    row[i]? = some (cell row i) := by
  rw [List.getElem?_eq_getElem h, cell, List.getElem_eq_getD]

theorem pickCellsChecked_eq_some {row : Row} {picked : List Nat}
    (h : ∀ i ∈ picked, i < row.length) :
    pickCellsChecked picked row = some (pickCells picked row) :=
  mapM_eq_some_map fun i hi => getElem?_eq_cell (h i hi)

theorem pickColumnsChecked_eq_some {t : Table} {picked : List Nat}
    (h : ∀ i ∈ picked, i < t.columns.length) :
    t.pickColumnsChecked picked = some (t.pickColumns picked) :=
  mapM_eq_some_map fun i hi => by
    rw [List.getElem?_eq_getElem (h i hi), List.getElem_eq_getD]

theorem cellsChecked_eq_some {rows : List Row} {i : Nat} (h : ∀ row ∈ rows, i < row.length) :
    cellsChecked i rows = some (rows.map (cell · i)) :=
  mapM_eq_some_map fun row hrow => getElem?_eq_cell (h row hrow)

theorem WellFormed.lt_length {t : Table} (h : t.WellFormed) {i : Nat} (hi : i < t.columns.length) :
    ∀ row ∈ t.rows, i < row.length := fun row hrow => (h.2 row hrow).symm ▸ hi

theorem WellFormed.selectChecked_eq {t : Table} (h : t.WellFormed) (fields : List String) :
    t.selectChecked fields = some (t.select fields) := by
  have hpicked : ∀ i ∈ t.knownColumns fields, i < t.columns.length := fun i hi =>
    lt_of_mem_knownColumns hi
  have hrows : t.rows.mapM (pickCellsChecked (t.knownColumns fields)) =
      some (t.rows.map (pickCells (t.knownColumns fields))) :=
    mapM_eq_some_map fun row hrow =>
      pickCellsChecked_eq_some fun i hi => h.lt_length (hpicked i hi) row hrow
  simp only [selectChecked, Table.select, pickColumnsChecked_eq_some hpicked, hrows]
  split
  · rfl
  · split <;> rfl

theorem WellFormed.filterChecked_eq {t : Table} (h : t.WellFormed) (field : String)
    (value : Value) : t.filterChecked field value = some (t.filter field value) := by
  cases hi : t.columnIndex? field with
  | none => simp only [filterChecked, Table.filter, hi]
  | some i =>
    have hlt := h.lt_length (lt_of_columnIndex? hi)
    have hkept : (t.rows.filterM fun row => do return Cell.equal (← row[i]?) value) =
        some (t.rows.filter fun row => Cell.equal (cell row i) value) :=
      filterM_eq_some_filter fun row hrow => by rw [getElem?_eq_cell (hlt row hrow)]; rfl
    simp only [filterChecked, Table.filter, hi, hkept]
    rfl

theorem WellFormed.orderByChecked_eq {t : Table} (h : t.WellFormed) (field : String)
    (direction : Direction) :
    t.orderByChecked field direction = some (t.orderBy field direction) := by
  cases hi : t.columnIndex? field with
  | none => simp only [orderByChecked, Table.orderBy, hi]
  | some i =>
    have hlt := h.lt_length (lt_of_columnIndex? hi)
    have hless : ∀ a ∈ t.rows, ∀ b ∈ t.rows,
        rowLessChecked i direction a b = some (rowLess i direction a b) := by
      intro a ha b hb
      simp only [rowLessChecked, getElem?_eq_cell (hlt a ha), getElem?_eq_cell (hlt b hb)]
      rfl
    simp only [orderByChecked, Table.orderBy, hi, stableSortChecked_eq_some hless]
    rfl

end Table

namespace Grouping

theorem keyedChecked_eq_some {keys : List Nat} {rows : List Row}
    (h : ∀ row ∈ rows, ∀ i ∈ keys, i < row.length) :
    keyedChecked keys rows = some (rows.map fun row => (Table.pickCells keys row, row)) :=
  mapM_eq_some_map fun row hrow => by
    rw [Table.pickCellsChecked_eq_some (h row hrow)]
    rfl

theorem ofKeyed_map (keys : List Nat) (rows : List Row) :
    ofKeyed (rows.map fun row => (Table.pickCells keys row, row)) = ofRows keys rows := by
  unfold ofKeyed ofRows
  rw [List.filter_map, List.foldl_map]
  rfl

theorem Accepted.valueChecked_eq {a : Accepted} {rows : List Row}
    (h : ∀ i, a.source = some i → ∀ row ∈ rows, i < row.length) :
    (a.valueChecked rows).run = some (a.value rows) := by
  cases hi : a.source with
  | none =>
    simp only [Accepted.valueChecked, Accepted.value, hi]
    rfl
  | some i =>
    simp only [Accepted.valueChecked, Accepted.value, hi, Table.cellsChecked_eq_some (h i hi),
      lift_some_bind]
    cases a.aggregation.op.ofCells (rows.map (Table.cell · i)) <;> rfl

theorem Group.rowChecked_eq {accepted : List Accepted} {g : Group}
    (h : ∀ a ∈ accepted, ∀ i, a.source = some i → ∀ row ∈ g.rows, i < row.length) :
    (g.rowChecked accepted).run = some (g.row accepted) := by
  have hcells : accepted.mapM (·.valueChecked g.rows) = some (accepted.mapM (·.value g.rows)) :=
    run_mapM_eq_some fun a ha => Accepted.valueChecked_eq (h a ha)
  unfold Group.rowChecked Group.row
  rw [hcells]
  cases accepted.mapM (·.value g.rows) <;> rfl

end Grouping

namespace Table

theorem WellFormed.groupByChecked_eq {t : Table} (h : t.WellFormed) (keys : List String)
    (aggregations : List Aggregation) :
    (t.groupByChecked keys aggregations).run = some (t.groupBy keys aggregations) := by
  have hkeys : ∀ i ∈ t.knownColumns keys, i < t.columns.length := fun i hi =>
    lt_of_mem_knownColumns hi
  have hrows : ∀ row ∈ t.rows, ∀ i ∈ t.knownColumns keys, i < row.length := fun row hrow i hi =>
    h.lt_length (hkeys i hi) row hrow
  have hgroups : (Grouping.ofRows (t.knownColumns keys) t.rows).mapM
      (Grouping.Group.rowChecked
        (Grouping.accept t (t.pickColumns (t.knownColumns keys)) aggregations).1) =
        some ((Grouping.ofRows (t.knownColumns keys) t.rows).mapM
          (Grouping.Group.row
            (Grouping.accept t (t.pickColumns (t.knownColumns keys)) aggregations).1)) := by
    refine run_mapM_eq_some fun g hg => Grouping.Group.rowChecked_eq ?_
    intro a ha i hi row hrow
    have hsource := Grouping.source_lt_of_mem_accept ha hi
    exact h.lt_length hsource row ((Grouping.drawnFrom_ofRows hg).2 row hrow)
  have hnulls : (t.rows.map fun row => (pickCells (t.knownColumns keys) row, row)).countP
      (fun k => k.1.any (·.isNull)) = t.rows.countP (Grouping.hasNullKey (t.knownColumns keys)) :=
    List.countP_map
  unfold groupByChecked Table.groupBy
  dsimp only
  split
  · rfl
  · simp only [pickColumnsChecked_eq_some hkeys, lift_some_bind,
      Grouping.keyedChecked_eq_some hrows, Grouping.ofKeyed_map, hnulls]
    rw [hgroups]
    cases (Grouping.ofRows (t.knownColumns keys) t.rows).mapM (Grouping.Group.row
      (Grouping.accept t (t.pickColumns (t.knownColumns keys)) aggregations).1) <;> rfl

theorem WellFormed.applyChecked_eq {t : Table} (h : t.WellFormed) (op : Operation) :
    (op.applyChecked t).run = some (op.apply t) := by
  cases op with
  | select fields => simp only [Operation.applyChecked, h.selectChecked_eq]; rfl
  | filter field value => simp only [Operation.applyChecked, h.filterChecked_eq]; rfl
  | groupBy keys aggregations => exact h.groupByChecked_eq keys aggregations
  | orderBy field direction => simp only [Operation.applyChecked, h.orderByChecked_eq]; rfl
  | limit count => rfl

theorem WellFormed.runFromChecked_eq {t : Table} (h : t.WellFormed) (id : String) (index : Nat)
    (ops : List Operation) :
    (runFromChecked id index t ops).run = some (runFrom id index t ops) := by
  induction ops generalizing t index with
  | nil => rfl
  | cons op ops ih =>
    have happly : op.applyChecked t = some (op.apply t) := h.applyChecked_eq op
    simp only [runFromChecked, runFrom, happly]
    cases hop : op.apply t with
    | error cell => rfl
    | ok applied =>
      obtain ⟨u, notes⟩ := applied
      have hrest : runFromChecked id (index + 1) u ops = some (runFrom id (index + 1) u ops) :=
        ih (h.of_apply hop) (index + 1)
      change (runFromChecked id (index + 1) u ops >>= _).run =
        some (runFrom id (index + 1) u ops >>= _)
      rw [hrest]
      cases runFrom id (index + 1) u ops <;> rfl

/-- No run of a plan on a well-formed table reads beyond the end of a row. -/
theorem WellFormed.runChecked_eq {t : Table} (h : t.WellFormed) (p : Plan) :
    (p.runChecked t).run = some (p.run t) := by
  have collected : ∀ recipes : List Recipe,
      runRecipesChecked t recipes = some (runRecipes t recipes) := by
    intro recipes
    induction recipes with
    | nil => rfl
    | cons r recipes ih =>
      have hr : runFromChecked r.id 0 t r.operations = some (r.run t) :=
        h.runFromChecked_eq r.id 0 r.operations
      simp only [runRecipesChecked, runRecipes, hr, ih]
      cases r.run t with
      | error e => rfl
      | ok ran =>
        cases runRecipes t recipes <;> rfl
  exact collected p.recipes

theorem WellFormed.previewChecked_eq {t : Table} (h : t.WellFormed) (rules : Preview.Rules) :
    t.previewChecked rules = some (t.preview rules) := by
  have shown : ∀ (rest : List (Value → Value)) (row : Row) (k : Nat), row.length = k + rest.length →
      ((rest.zipIdx k).mapM fun p => p.1 <$> row[p.2]?) =
        some (List.zipWith (· ·) rest (row.drop k)) := by
    intro rest
    induction rest with
    | nil => exact fun _ _ _ => rfl
    | cons rule rest ih =>
      intro row k hlength
      rw [List.length_cons] at hlength
      have hk : k < row.length := by omega
      rw [List.zipIdx_cons, List.mapM_cons, List.getElem?_eq_getElem hk,
        ih row (k + 1) (by omega), List.drop_eq_getElem_cons hk]
      rfl
  refine mapM_eq_some_map fun row hrow => ?_
  have hlength := (h.head rules.rowLimit).2 row hrow
  rw [shown _ row 0 (by simpa using hlength)]
  rfl

end Table
end TablePlanner
