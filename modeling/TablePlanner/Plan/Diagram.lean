import TablePlanner.Plan.Basic

namespace TablePlanner
open Json

structure DiagramNode where
  id : String
  kind : String
  label : String
  x : Int32
  icon : String
deriving DecidableEq, Repr

structure Connection where
  source : String
  target : String
deriving DecidableEq, Repr

structure Diagram where
  nodes : List DiagramNode
  connections : List Connection
deriving DecidableEq, Repr

namespace Diagram

def lineY : Int32 := 180

def spacing : Int32 := 220

def sourceNode : DiagramNode := ⟨"source-1", "source", "Data Source", 100, "Database"⟩

def exportNode (x : Int32) : DiagramNode := ⟨"export-1", "output", "Export Result", x, "Download"⟩

def icon (r : Recipe) : String :=
  match r.operations with
  | .groupBy .. :: _ => "GitMerge"
  | .orderBy .. :: _ => "ListOrdered"
  | _ => "Filter"

def recipeNode (index : Nat) (r : Recipe) (x : Int32) : DiagramNode :=
  ⟨"transform-" ++ toString index, "transform", r.title, x, icon r⟩

def chain (last : String) (x : Int32) : List (Nat × Recipe) → Diagram
  | [] => ⟨[exportNode x], [⟨last, (exportNode x).id⟩]⟩
  | (index, r) :: rs =>
    let node := recipeNode index r x
    let rest := chain node.id (x + spacing) rs
    ⟨node :: rest.nodes, ⟨last, node.id⟩ :: rest.connections⟩

end Diagram

def Plan.drawn (p : Plan) : List (Nat × Recipe) :=
  (p.recipes.zipIdx.map fun (r, i) => (i, r)).filter fun (_, r) =>
    !(r.isDefault && decide (1 < p.recipes.length))

def Plan.diagram (p : Plan) : Diagram :=
  let rest := Diagram.chain Diagram.sourceNode.id (Diagram.sourceNode.x + Diagram.spacing) p.drawn
  { rest with nodes := Diagram.sourceNode :: rest.nodes }

def DiagramNode.toJson (n : DiagramNode) : Value :=
  .object [("id", .string n.id), ("type", .string n.kind), ("label", .string n.label),
    ("x", .int n.x.toInt), ("y", .int Diagram.lineY.toInt),
    ("data", .object [("icon", .string n.icon)])]

def Connection.toJson (c : Connection) : Value :=
  .object [("from", .string c.source), ("to", .string c.target)]

def Diagram.members (d : Diagram) : List (String × Value) :=
  [("nodes", .array (d.nodes.map (·.toJson))),
    ("connections", .array (d.connections.map (·.toJson)))]

def Diagram.toJson (d : Diagram) : Value := .object d.members

end TablePlanner
