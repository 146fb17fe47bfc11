import TablePlanner.Json.Value
import TablePlanner.Order.StableSort
import TablePlanner.Table.Basic

namespace TablePlanner

structure Registry where
  entries : List (String × Table)
deriving Repr

inductive RegistryError where
  | tableNotFound (name : String)
deriving DecidableEq, Repr

def RegistryError.message : RegistryError → String
  | tableNotFound name => "Table not found: " ++ name

namespace Registry

def empty : Registry := ⟨[]⟩

def get? (r : Registry) (name : String) : Option Table := r.entries.lookup name

def get (r : Registry) (name : String) : Except RegistryError Table :=
  match r.get? name with
  | some t => .ok t
  | none => .error (.tableNotFound name)

def insert (r : Registry) (name : String) (t : Table) : Registry :=
  ⟨Json.putMember name t r.entries⟩

theorem get?_insert_self (r : Registry) (name : String) (t : Table) :
    (r.insert name t).get? name = some t :=
  Json.lookup_putMember_self name t r.entries

theorem get?_insert_of_ne (r : Registry) {name other : String} (h : other ≠ name) (t : Table) :
    (r.insert name t).get? other = r.get? other :=
  Json.lookup_putMember_of_ne h t r.entries

def erase (r : Registry) (name : String) : Registry := ⟨r.entries.filter (·.1 != name)⟩

def contains (r : Registry) (name : String) : Bool := (r.get? name).isSome

def names (r : Registry) : List String :=
  stableSort (fun s t => compare s t == .lt) (r.entries.map (·.1))

def sorted (r : Registry) : List (String × Table) :=
  r.names.filterMap fun name => (r.get? name).map (name, ·)

def size (r : Registry) : Nat := r.entries.length

end Registry
end TablePlanner
