import TablePlanner.Table.Schema

namespace TablePlanner
open Json

structure ColumnEntry where
  name : String
  type : ColumnType
  isNullable : Bool
  samples : List Value
deriving Repr

structure CatalogEntry where
  name : String
  columns : List ColumnEntry
  sampleRecords : List Value
  rowCount : Nat
deriving Repr

namespace CatalogEntry

def sampleRows : Nat := 5

def ofTable (name : String) (t : Table) : CatalogEntry :=
  let sample := t.head sampleRows
  let column (p : String × Nat) : ColumnEntry :=
    ⟨p.1, t.columnType p.2, (t.columnCells p.2).any (·.isNull), sample.columnCells p.2⟩
  ⟨name, t.columns.zipIdx.map column, sample.toRecords, t.height⟩

/-- A sample cell. A text stands between quotes just as it is. -/
def sampleText : Value → String
  | .string s => "\"" ++ s ++ "\""
  | v => v.render

def columnLine (c : ColumnEntry) : String :=
  "| \x60" ++ c.name ++ "\x60 | " ++ c.type.name ++ " | " ++ (if c.isNullable then "✓" else "") ++
    " | " ++ ", ".intercalate ((c.samples.take 3).map sampleText) ++ " |\n"

def markdown (e : CatalogEntry) : String :=
  "## Table: \x60" ++ e.name ++ "\x60\n\n**Rows:** " ++ toString e.rowCount ++ "\n\n" ++
    "| Column | Type | Nullable | Sample Values |\n" ++
    "|--------|------|----------|---------------|\n" ++
    String.join (e.columns.map columnLine)

end CatalogEntry

def ColumnEntry.toJson (c : ColumnEntry) : Value :=
  .object [("name", .string c.name), ("data_type", .string c.type.name),
    ("is_nullable", .bool c.isNullable), ("sample_values", .array c.samples)]

def CatalogEntry.toJson (e : CatalogEntry) : Value :=
  .object [("name", .string e.name), ("columns", .array (e.columns.map (·.toJson))),
    ("sample_data", .array e.sampleRecords), ("row_count", .nat e.rowCount)]

end TablePlanner
