import TablePlanner.Json.Shape
import TablePlanner.Plan.Basic
import TablePlanner.Digest.Sha256

/-! Written plans name every field. In plans that are read, a recipe may leave out its operations, a
selection its fields, a grouping its aggregations, an ordering its direction. -/
namespace TablePlanner
open Json

def Aggregation.toJson (a : Aggregation) : Value :=
  .object [("field", .string a.field), ("op", .string a.op.name), ("as", .string a.label)]

def Operation.members : Operation → List (String × Value)
  | .select fields => [("fields", .strings fields)]
  | .filter field value => [("field", .string field), ("value", value)]
  | .groupBy keys aggregations =>
    [("keys", .strings keys), ("aggregations", .array (aggregations.map (·.toJson)))]
  | .orderBy field direction => [("field", .string field), ("direction", .string direction.name)]
  | .limit count => [("count", .int count)]

def Operation.toJson (op : Operation) : Value :=
  .object (("type", .string op.kind) :: op.members)

def Recipe.toJson (r : Recipe) : Value :=
  .object [("id", .string r.id), ("title", .string r.title),
    ("operations", .array (r.operations.map (·.toJson)))]

def Section.toJson (s : Section) : Value :=
  .object [("title", .string s.title), ("content", .strings s.content)]

def Plan.toJson (p : Plan) : Value :=
  .object [("tables", .array (p.recipes.map (·.toJson))),
    ("layout", .object [("sections", .array (p.layout.map (·.toJson)))]),
    ("isValidRequest", .bool p.isValidRequest)]

def Plan.text (p : Plan) : String := p.toJson.render

def Plan.fingerprint (p : Plan) : String := Sha256.ofText p.text

open Document (field optionalField)

def Aggregate.ofName? : String → Option Aggregate
  | "SUM" => some .sum
  | "COUNT" => some .count
  | "MEAN" => some .mean
  | "MIN" => some .min
  | "MAX" => some .max
  | _ => none

def Direction.ofName? : String → Option Direction
  | "ASC" => some .ascending
  | "DESC" => some .descending
  | _ => none

namespace Wire

def aggregation : Reader Aggregation :=
  Document.toRecord
    [optionalField "field" Document.toText fun x a => { a with field := x },
     field "op" (Document.toHeldChoice Aggregate.ofName?) fun x a => { a with op := x },
     field "as" Document.toText fun x a => { a with label := x }]
    ⟨"", .sum, ""⟩

def select : Reader Operation :=
  Reader.map .select <| Document.toRecord [optionalField "fields" Document.toTexts fun x _ => x] []

def filter : Reader Operation :=
  Reader.map (fun (f, v) => .filter f v) <| Document.toRecord
    [field "field" Document.toText fun x r => (x, r.2),
     field "value" Document.toValue fun x r => (r.1, x)]
    ("", Value.null)

def groupBy : Reader Operation :=
  Reader.map (fun (ks, as) => .groupBy ks as) <| Document.toRecord
    [field "keys" Document.toTexts fun x r => (x, r.2),
     optionalField "aggregations" (Document.toList aggregation) fun x r => (r.1, x)]
    ([], [])

def orderBy : Reader Operation :=
  Reader.map (fun (f, d) => .orderBy f d) <| Document.toRecord
    [field "field" Document.toText fun x r => (x, r.2),
     optionalField "direction" (Document.toHeldChoice Direction.ofName?) fun x r => (r.1, x)]
    ("", Direction.ascending)

def limit : Reader Operation :=
  Reader.map .limit <| Document.toRecord [field "count" Document.toInt64 fun x _ => x] 0

def operationOfKind? : String → Option (Reader Operation)
  | "SELECT" => some select
  | "FILTER" => some filter
  | "GROUP_BY" => some groupBy
  | "ORDER_BY" => some orderBy
  | "LIMIT" => some limit
  | _ => none

def operation : Reader Operation := Document.toTagged "type" operationOfKind?

def recipe : Reader Recipe :=
  Document.toRecord
    [field "id" Document.toText fun x r => { r with id := x },
     field "title" Document.toText fun x r => { r with title := x },
     optionalField "operations" (Document.toList operation) fun x r => { r with operations := x }]
    ⟨"", "", []⟩

def layoutSection : Reader Section :=
  Document.toRecord
    [optionalField "title" Document.toText fun x s => { s with title := x },
     field "content" Document.toTexts fun x s => { s with content := x }]
    ⟨"", []⟩

def layout : Reader (List Section) :=
  Document.toRecord [optionalField "sections" (Document.toList layoutSection) fun x _ => x] []

def plan : Reader Plan :=
  Document.toRecord
    [field "tables" (Document.toList recipe) fun x p => { p with recipes := x },
     optionalField "layout" layout fun x p => { p with layout := x },
     optionalField "isValidRequest" Document.toBool fun x p => { p with isValidRequest := x }]
    (Plan.empty false)

end Wire
end TablePlanner
