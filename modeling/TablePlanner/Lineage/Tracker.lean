import TablePlanner.Json.Value

/-! Which stored table came from which by what transform. A node is added once for its identifier,
an edge once for the text of its two ends joined by a hyphen. Nodes stand on a grid of three
columns, in coordinates of 32 bits. -/
namespace TablePlanner
open Json

namespace Lineage

inductive Kind where
  | source
  | transform
  | output
deriving DecidableEq, Repr

def Kind.name : Kind → String
  | source => "source"
  | transform => "transform"
  | output => "output"

def Kind.ofName? : String → Option Kind
  | "source" => some source
  | "transform" => some transform
  | "output" => some output
  | _ => none

structure Position where
  x : Int32
  y : Int32
deriving DecidableEq, Repr

/-- The place of the node with index `n`. Indices beyond 31 bits all share one place. -/
def Position.nth (n : Nat) : Position :=
  let slot : Int32 := if n ≤ 2147483647 then Int32.ofNat n else 2147483647 / 250
  ⟨slot % 3 * 250 + 100, slot / 3 * 150 + 100⟩

structure Node where
  id : String
  label : String
  kind : Kind
  metadata : List (String × Value)
  position : Position
deriving Repr

structure Edge where
  source : String
  target : String
  label : String
deriving DecidableEq, Repr

def Edge.id (e : Edge) : String := "e-" ++ e.source ++ "-" ++ e.target

structure Run where
  source : String
  sourceRows : Nat
  transform : String
  label : String
  metadata : List (String × Value)
  output : String
  outputRows : Nat
deriving Repr

end Lineage

open Lineage

structure LineageGraph where
  nodes : List Node
  edges : List Edge
deriving Repr

namespace LineageGraph

def empty : LineageGraph := ⟨[], []⟩

def addNode (g : LineageGraph) (id : String) (kind : Kind) (label : String)
    (metadata : List (String × Value)) : LineageGraph :=
  if g.nodes.any (·.id == id) then g
  else { g with nodes := g.nodes ++ [⟨id, label, kind, metadata, .nth g.nodes.length⟩] }

def addEdge (g : LineageGraph) (source target label : String) : LineageGraph :=
  let edge : Edge := ⟨source, target, label⟩
  if g.edges.any (·.id == edge.id) then g else { g with edges := g.edges ++ [edge] }

def rowsMetadata (rows : Nat) : List (String × Value) := [("rows", .nat rows)]

def record (g : LineageGraph) (run : Run) : LineageGraph :=
  let g := g.addNode run.source .source run.source (rowsMetadata run.sourceRows)
  let g := g.addNode run.transform .transform run.label run.metadata
  let g := g.addEdge run.source run.transform "Applied Plan"
  let g := g.addNode run.output .output run.output (rowsMetadata run.outputRows)
  g.addEdge run.transform run.output "Generated"

end LineageGraph

def Lineage.Node.toJson (n : Node) : Value :=
  .object [("id", .string n.id), ("label", .string n.label), ("type", .string n.kind.name),
    ("metadata", .object n.metadata),
    ("position", .object [("x", .int n.position.x.toInt), ("y", .int n.position.y.toInt)])]

def Lineage.Edge.toJson (e : Edge) : Value :=
  .object [("id", .string e.id), ("source", .string e.source), ("target", .string e.target),
    ("label", .string e.label)]

def LineageGraph.toJson (g : LineageGraph) : Value :=
  .object [("nodes", .array (g.nodes.map (·.toJson))), ("edges", .array (g.edges.map (·.toJson)))]

end TablePlanner
