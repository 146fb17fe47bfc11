import TablePlanner.Table.Schema

namespace TablePlanner
open Json
open Document (field optionalField)

def Table.toJson (t : Table) : Value :=
  .object [("columns", .strings t.columns), ("rows", .array (t.rows.map .array))]

def Table.text (t : Table) : String := t.toJson.render

namespace Wire

def rows : Reader (List Row) := Document.toList (Document.toList Document.toValue)

def table : Reader Table := fun d => do
  let t ← Document.toRecord
    [field "columns" Document.toTexts fun x (t : Table) => { t with columns := x },
     optionalField "rows" rows fun x t => { t with rows := x }]
    ⟨[], []⟩ d
  match Table.ofRows t.columns t.rows with
  | .ok t => return t
  | .error _ => throw .misshapen

def schema : Reader Schema :=
  Document.toRecord
    [⟨["columns", "fields"], true,
        fun d s => do return { s with columns := ← Document.toTexts d }⟩,
     optionalField "types" (Document.toMap (Document.toChoice ColumnType.ofName?))
      fun x s => { s with types := x }]
    ⟨[], []⟩

end Wire
end TablePlanner
