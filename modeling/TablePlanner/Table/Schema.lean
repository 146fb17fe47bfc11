import TablePlanner.Cell.ColumnType
import TablePlanner.Json.Shape
import TablePlanner.Table.Basic
import TablePlanner.Text.Lowercase
import TablePlanner.Text.Search

namespace TablePlanner

structure Schema where
  columns : List String
  types : List (String × ColumnType)
deriving Repr

namespace Schema

def ofColumns (columns : List String) : Schema := ⟨columns, []⟩

def type? (s : Schema) (name : String) : Option ColumnType := s.types.lookup name

def matchesAny (keywords : List String) (column : String) : Bool :=
  keywords.any (Text.holds (Text.lowercase column))

def findColumn? (s : Schema) (keywords : List String) : Option String :=
  s.columns.find? (matchesAny keywords)

/-- Whether a text stands in some column name, letter case included. -/
def mentions (s : Schema) (text : String) : Bool := s.columns.any fun c => Text.holds c text

end Schema

namespace Table

def columnType (t : Table) (index : Nat) : ColumnType := ColumnType.infer (t.columnCells index)

def schema (t : Table) : Schema :=
  ⟨t.columns, t.columns.zipIdx.map fun (c, i) => (c, t.columnType i)⟩

end Table
end TablePlanner
