import TablePlanner.Json.Value

namespace TablePlanner
open Json

inductive Note where
  | missingField (field : String)
  | emptySelection (requested : List String)
  | unknownFields (fields : List String)
  | noGroupKeys (keys : List String)
  | missingGroupKeys (keys : List String)
  | droppedAggregation (field label : String)
  | duplicateLabel (label : String)
  | nullGroupKeys (rows : Nat)
  | nonPositiveLimit (count : Int)
deriving DecidableEq, Repr

namespace Note

def reason : Note → String
  | missingField _ => "missing_field"
  | emptySelection _ => "empty_selection"
  | unknownFields _ => "unknown_fields"
  | noGroupKeys _ => "no_group_keys"
  | missingGroupKeys _ => "missing_group_keys"
  | droppedAggregation .. => "dropped_aggregation"
  | duplicateLabel _ => "duplicate_alias"
  | nullGroupKeys _ => "null_group_keys"
  | nonPositiveLimit _ => "non_positive_limit"

def details : Note → List (String × Value)
  | missingField field => [("field", .string field)]
  | emptySelection requested => [("requested", .strings requested)]
  | unknownFields fields => [("fields", .strings fields)]
  | noGroupKeys keys => [("keys", .strings keys)]
  | missingGroupKeys keys => [("keys", .strings keys)]
  | droppedAggregation field label => [("field", .string field), ("alias", .string label)]
  | duplicateLabel label => [("alias", .string label)]
  | nullGroupKeys rows => [("rows", .nat rows)]
  | nonPositiveLimit count => [("count", .int count)]

end Note

structure Diagnostic where
  table : String
  index : Nat
  kind : String
  note : Note
deriving DecidableEq, Repr

def Diagnostic.toJson (d : Diagnostic) : Value :=
  .object ([("tableId", .string d.table), ("opIndex", .nat d.index), ("op", .string d.kind),
    ("reason", .string d.note.reason)] ++ d.note.details)

end TablePlanner
