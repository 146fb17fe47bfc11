import TablePlanner.Calendar.Layout
import TablePlanner.Json.Value

namespace TablePlanner

inductive ColumnType where
  | integer
  | float
  | boolean
  | date
  | string
  | unknown
deriving DecidableEq, Repr

namespace ColumnType
open Json

def name : ColumnType → String
  | integer => "integer"
  | float => "float"
  | boolean => "boolean"
  | date => "date"
  | string => "string"
  | unknown => "unknown"

def ofName? : String → Option ColumnType
  | "integer" => some integer
  | "float" => some float
  | "boolean" => some boolean
  | "date" => some date
  | "string" => some string
  | "unknown" => some unknown
  | _ => none

def ofCell? : Value → Option ColumnType
  | .null => none
  | .bool _ => some boolean
  | .number (.integer _) => some integer
  | .number (.float _) => some float
  | .string s => some (if (Date.ofText? s).isSome then date else string)
  | .array _ => some string
  | .object _ => some string

def join (a b : ColumnType) : ColumnType :=
  if a = b then a
  else
    match a, b with
    | integer, float => float
    | float, integer => float
    | _, _ => string

def joinCell (inferred : Option ColumnType) (cell : Value) : Option ColumnType :=
  match ofCell? cell, inferred with
  | none, inferred => inferred
  | some kind, none => some kind
  | some kind, some inferred => some (join inferred kind)

def infer (cells : List Value) : ColumnType := (cells.foldl joinCell none).getD unknown

end ColumnType
end TablePlanner
