import TablePlanner.Json.Value

/-! Tables that the library builds are well formed: their column names are distinct and every row
has one cell for each column. The builder from columns and rows checks this; the builder from
records fills what a record leaves out with nulls. -/
namespace TablePlanner
open Json

abbrev Row := List Value

structure Table where
  columns : List String
  rows : List Row
deriving Repr

inductive TableError where
  | duplicateColumn (name : String)
  | raggedRow (row expected actual : Nat)
  | notAnObject (index : Nat)
deriving DecidableEq, Repr

def TableError.message : TableError → String
  | duplicateColumn name => "Duplicate column: " ++ name
  | raggedRow row expected actual =>
    "Row " ++ toString row ++ " has " ++ toString actual ++ " cells, expected " ++ toString expected
  | notAnObject index => "Record " ++ toString index ++ " is not a JSON object"

namespace Table

def WellFormed (t : Table) : Prop :=
  t.columns.Nodup ∧ ∀ row ∈ t.rows, row.length = t.columns.length

instance (t : Table) : Decidable t.WellFormed := inferInstanceAs (Decidable (_ ∧ _))

def firstRepeat? (seen : List String) : List String → Option String
  | [] => none
  | c :: cs => if c ∈ seen then some c else firstRepeat? (c :: seen) cs

def firstRagged? (width index : Nat) : List Row → Option (Nat × Nat)
  | [] => none
  | row :: rows =>
    if row.length = width then firstRagged? width (index + 1) rows else some (index, row.length)

theorem nodup_of_firstRepeat?_eq_none {names seen : List String}
    (h : firstRepeat? seen names = none) : names.Nodup ∧ ∀ c ∈ names, c ∉ seen := by
  induction names generalizing seen with
  | nil => exact ⟨.nil, by simp⟩
  | cons c cs ih =>
    unfold firstRepeat? at h
    split at h
    · cases h
    · next hc =>
      obtain ⟨hcs, hseen⟩ := ih h
      have hfresh : c ∉ cs := fun hmem => hseen c hmem (by simp)
      refine ⟨List.nodup_cons.2 ⟨hfresh, hcs⟩, ?_⟩
      intro d hd
      rcases List.mem_cons.1 hd with rfl | hd
      · exact hc
      · exact fun hmem => hseen d hd (by simp [hmem])

theorem length_of_firstRagged?_eq_none {width index : Nat} {rows : List Row}
    (h : firstRagged? width index rows = none) : ∀ row ∈ rows, row.length = width := by
  induction rows generalizing index with
  | nil => simp
  | cons row rows ih =>
    unfold firstRagged? at h
    split at h
    · next hrow =>
      intro r hr
      rcases List.mem_cons.1 hr with rfl | hr
      · exact hrow
      · exact ih h r hr
    · cases h

def ofRows (columns : List String) (rows : List Row) : Except TableError Table :=
  match firstRepeat? [] columns with
  | some name => .error (.duplicateColumn name)
  | none =>
    match firstRagged? columns.length 0 rows with
    | some (row, actual) => .error (.raggedRow row columns.length actual)
    | none => .ok ⟨columns, rows⟩

theorem wellFormed_of_ofRows {columns : List String} {rows : List Row} {t : Table}
    (h : ofRows columns rows = .ok t) : t.WellFormed := by
  unfold ofRows at h
  split at h
  · cases h
  · next hnames =>
    split at h
    · cases h
    · next hrows =>
      cases h
      exact ⟨(nodup_of_firstRepeat?_eq_none hnames).1, length_of_firstRagged?_eq_none hrows⟩

abbrev Record := List (String × Value)

def recordsFrom (index : Nat) : List Value → Except TableError (List Record)
  | [] => .ok []
  | .object members :: vs => do return members :: (← recordsFrom (index + 1) vs)
  | _ :: _ => .error (.notAnObject index)

def addColumns (columns : List String) (names : List String) : List String :=
  names.foldl (fun cs name => if name ∈ cs then cs else cs ++ [name]) columns

theorem nodup_addColumns {columns : List String} (h : columns.Nodup) (names : List String) :
    (addColumns columns names).Nodup := by
  unfold addColumns
  induction names generalizing columns with
  | nil => exact h
  | cons name names ih =>
    refine ih ?_
    by_cases hname : name ∈ columns
    · simpa [hname] using h
    · simpa [hname, List.nodup_append] using ⟨h, fun c hc => fun heq => hname (heq ▸ hc)⟩

def columnsOf (records : List Record) : List String :=
  records.foldl (fun cs record => addColumns cs (record.map (·.1))) []

theorem nodup_columnsOf (records : List Record) : (columnsOf records).Nodup := by
  have collected : ∀ (records : List Record) (columns : List String), columns.Nodup →
      (records.foldl (fun cs record => addColumns cs (record.map (·.1))) columns).Nodup := by
    intro records
    induction records with
    | nil => exact fun _ h => h
    | cons record records ih => exact fun columns h => ih _ (nodup_addColumns h _)
  exact collected records [] .nil

def rowOf (columns : List String) (record : Record) : Row :=
  columns.map fun c => (record.lookup c).getD .null

def ofRecords (values : List Value) : Except TableError Table := do
  let records ← recordsFrom 0 values
  let columns := columnsOf records
  return ⟨columns, records.map (rowOf columns)⟩

theorem wellFormed_of_ofRecords {values : List Value} {t : Table} (h : ofRecords values = .ok t) :
    t.WellFormed := by
  unfold ofRecords at h
  cases hr : recordsFrom 0 values with
  | error e => rw [hr] at h; cases h
  | ok records =>
    rw [hr] at h
    cases h
    refine ⟨nodup_columnsOf records, ?_⟩
    simp [rowOf]

def toRecord (columns : List String) (row : Row) : Value := .object (columns.zip row)

def toRecords (t : Table) : List Value := t.rows.map (toRecord t.columns)

def height (t : Table) : Nat := t.rows.length

def width (t : Table) : Nat := t.columns.length

def isEmpty (t : Table) : Bool := t.rows.isEmpty

def columnIndex? (t : Table) (name : String) : Option Nat := t.columns.idxOf? name

/-- A cell of a row. In a well-formed table an index of a column is always within the row. -/
def cell (row : Row) (index : Nat) : Value := row.getD index .null

def columnCells (t : Table) (index : Nat) : List Value := t.rows.filterMap (·[index]?)

def head (t : Table) (n : Nat) : Table := { t with rows := t.rows.take n }

theorem WellFormed.head {t : Table} (h : t.WellFormed) (n : Nat) : (t.head n).WellFormed :=
  ⟨h.1, fun row hrow => h.2 row (List.mem_of_mem_take hrow)⟩

end Table
end TablePlanner
