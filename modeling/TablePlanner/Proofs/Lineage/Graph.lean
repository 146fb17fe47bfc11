import Mathlib.Data.List.Nodup
import TablePlanner.Lineage.Tracker

namespace TablePlanner
open Lineage

namespace Lineage.Run

/-- The edge from the source of a run to its transform. -/
def applied (r : Run) : Edge := ⟨r.source, r.transform, "Applied Plan"⟩

/-- The edge from the transform of a run to its output. -/
def generated (r : Run) : Edge := ⟨r.transform, r.output, "Generated"⟩

end Lineage.Run

namespace LineageGraph

def HasNode (g : LineageGraph) (id : String) : Prop := ∃ n ∈ g.nodes, n.id = id

def HasEdge (g : LineageGraph) (id : String) : Prop := ∃ e ∈ g.edges, e.id = id

structure Sound (g : LineageGraph) : Prop where
  nodes : (g.nodes.map (·.id)).Nodup
  edges : (g.edges.map (·.id)).Nodup
  ends : ∀ e ∈ g.edges, g.HasNode e.source ∧ g.HasNode e.target

structure Extends (g g' : LineageGraph) : Prop where
  nodes : g.nodes <+: g'.nodes
  edges : g.edges <+: g'.edges

/-- Whether a graph shows a run with its three nodes and both of its edges. -/
structure Shows (g : LineageGraph) (source transform output : String) : Prop where
  sourceNode : g.HasNode source
  transformNode : g.HasNode transform
  outputNode : g.HasNode output
  applied : ⟨source, transform, "Applied Plan"⟩ ∈ g.edges
  generated : ⟨transform, output, "Generated"⟩ ∈ g.edges

/-- Whether all identifiers that a run would add are taken. -/
structure Holds (g : LineageGraph) (run : Run) : Prop where
  sourceNode : g.HasNode run.source
  transformNode : g.HasNode run.transform
  outputNode : g.HasNode run.output
  applied : g.HasEdge run.applied.id
  generated : g.HasEdge run.generated.id

theorem sound_empty : empty.Sound := by
  constructor <;> simp [empty]

theorem nodup_map_concat {key : α → String} {xs : List α} {x : α} (h : (xs.map key).Nodup)
    (hnew : ¬ xs.any (key · == key x)) : ((xs ++ [x]).map key).Nodup := by
  rw [List.map_append, List.map_singleton, ← List.concat_eq_append]
  refine h.concat ?_
  simpa using hnew

section
variable {g g' g'' : LineageGraph} {id source target transform output label : String}
  {kind : Kind} {metadata : List (String × Json.Value)}

namespace Extends

theorem refl (g : LineageGraph) : g.Extends g := ⟨List.prefix_rfl, List.prefix_rfl⟩

theorem trans (h : g.Extends g') (h' : g'.Extends g'') : g.Extends g'' :=
  ⟨h.nodes.trans h'.nodes, h.edges.trans h'.edges⟩

theorem hasNode (h : g.Extends g') (hnode : g.HasNode id) : g'.HasNode id := by
  obtain ⟨n, hn, hid⟩ := hnode
  exact ⟨n, h.nodes.subset hn, hid⟩

theorem hasEdge (h : g.Extends g') (hedge : g.HasEdge id) : g'.HasEdge id := by
  obtain ⟨e, he, hid⟩ := hedge
  exact ⟨e, h.edges.subset he, hid⟩

theorem shows (h : g.Extends g') (hrun : g.Shows source transform output) :
    g'.Shows source transform output where
  sourceNode := h.hasNode hrun.sourceNode
  transformNode := h.hasNode hrun.transformNode
  outputNode := h.hasNode hrun.outputNode
  applied := h.edges.subset hrun.applied
  generated := h.edges.subset hrun.generated

end Extends

theorem extends_addNode : g.Extends (g.addNode id kind label metadata) := by
  unfold addNode
  split
  · exact .refl g
  · exact ⟨List.prefix_append _ _, List.prefix_rfl⟩

theorem hasNode_addNode : (g.addNode id kind label metadata).HasNode id := by
  unfold addNode
  split
  · next hold =>
    obtain ⟨n, hn, hid⟩ := List.any_eq_true.1 hold
    exact ⟨n, hn, by simpa using hid⟩
  · exact ⟨⟨id, label, kind, metadata, .nth g.nodes.length⟩, by simp, rfl⟩

theorem addNode_of_hasNode (h : g.HasNode id) : g.addNode id kind label metadata = g := by
  obtain ⟨n, hn, hid⟩ := h
  exact if_pos (List.any_eq_true.2 ⟨n, hn, by simpa using hid⟩)

theorem edges_addNode : (g.addNode id kind label metadata).edges = g.edges := by
  unfold addNode
  split <;> rfl

theorem extends_addEdge : g.Extends (g.addEdge source target label) := by
  unfold addEdge
  dsimp only
  split
  · exact .refl g
  · exact ⟨List.prefix_rfl, List.prefix_append _ _⟩

theorem hasEdge_addEdge : (g.addEdge source target label).HasEdge
    (Edge.id ⟨source, target, label⟩) := by
  unfold addEdge
  dsimp only
  split
  · next hold =>
    obtain ⟨e, he, hid⟩ := List.any_eq_true.1 hold
    exact ⟨e, he, by simpa using hid⟩
  · exact ⟨⟨source, target, label⟩, by simp, rfl⟩

theorem addEdge_of_hasEdge (h : g.HasEdge (Edge.id ⟨source, target, label⟩)) :
    g.addEdge source target label = g := by
  obtain ⟨e, he, hid⟩ := h
  exact if_pos (List.any_eq_true.2 ⟨e, he, by simpa using hid⟩)

theorem mem_edges_addEdge {e : Edge} (h : e ∈ (g.addEdge source target label).edges) :
    e ∈ g.edges ∨ e = ⟨source, target, label⟩ := by
  unfold addEdge at h
  dsimp only at h
  split at h
  · exact .inl h
  · rcases List.mem_append.1 h with h | h
    · exact .inl h
    · exact .inr (List.mem_singleton.1 h)

theorem mem_addEdge_self (h : ∀ e ∈ g.edges, e.id = Edge.id ⟨source, target, label⟩ →
      e = ⟨source, target, label⟩) :
    ⟨source, target, label⟩ ∈ (g.addEdge source target label).edges := by
  unfold addEdge
  dsimp only
  split
  · next hold =>
    obtain ⟨e, he, hid⟩ := List.any_eq_true.1 hold
    have hsame := h e he (by simpa using hid)
    exact hsame ▸ he
  · simp

namespace Sound

theorem addNode (h : g.Sound) : (g.addNode id kind label metadata).Sound where
  nodes := by
    unfold LineageGraph.addNode
    split
    · exact h.nodes
    · next hnew => exact nodup_map_concat h.nodes hnew
  edges := by
    rw [edges_addNode]
    exact h.edges
  ends e he := by
    rw [edges_addNode] at he
    obtain ⟨hsource, htarget⟩ := h.ends e he
    exact ⟨extends_addNode.hasNode hsource, extends_addNode.hasNode htarget⟩

theorem addEdge (h : g.Sound) (hsource : g.HasNode source) (htarget : g.HasNode target) :
    (g.addEdge source target label).Sound where
  nodes := by
    unfold LineageGraph.addEdge
    dsimp only
    split <;> exact h.nodes
  edges := by
    unfold LineageGraph.addEdge
    dsimp only
    split
    · exact h.edges
    · next hnew => exact nodup_map_concat h.edges hnew
  ends e he := by
    have hends : g.HasNode e.source ∧ g.HasNode e.target := by
      rcases mem_edges_addEdge he with he | rfl
      · exact h.ends e he
      · exact ⟨hsource, htarget⟩
    exact ⟨extends_addEdge.hasNode hends.1, extends_addEdge.hasNode hends.2⟩

end Sound
end

def addTarget (g : LineageGraph) (e : Edge) (kind : Kind) (label : String)
    (metadata : List (String × Json.Value)) : LineageGraph :=
  (g.addNode e.target kind label metadata).addEdge e.source e.target e.label

section
variable {g : LineageGraph} {e other : Edge} {kind : Kind} {label : String}
  {metadata : List (String × Json.Value)}

theorem extends_addTarget : g.Extends (g.addTarget e kind label metadata) :=
  extends_addNode.trans extends_addEdge

theorem hasNode_addTarget : (g.addTarget e kind label metadata).HasNode e.target :=
  extends_addEdge.hasNode hasNode_addNode

theorem hasEdge_addTarget : (g.addTarget e kind label metadata).HasEdge e.id := hasEdge_addEdge

theorem addTarget_of_has (hnode : g.HasNode e.target) (hedge : g.HasEdge e.id) :
    g.addTarget e kind label metadata = g := by
  unfold addTarget
  rw [addNode_of_hasNode hnode, addEdge_of_hasEdge hedge]

theorem Sound.addTarget (h : g.Sound) (hsource : g.HasNode e.source) :
    (g.addTarget e kind label metadata).Sound :=
  h.addNode.addEdge (extends_addNode.hasNode hsource) hasNode_addNode

theorem mem_edges_addTarget (h : other ∈ (g.addTarget e kind label metadata).edges) :
    other ∈ g.edges ∨ other = e := by
  rw [← edges_addNode (g := g)]
  exact mem_edges_addEdge h

theorem mem_addTarget_self (h : ∀ other ∈ g.edges, other.id = e.id → other = e) :
    e ∈ (g.addTarget e kind label metadata).edges := by
  refine mem_addEdge_self ?_
  rwa [edges_addNode]

end

section
variable {g : LineageGraph} {run : Run}

theorem record_eq (g : LineageGraph) (run : Run) :
    g.record run =
      ((g.addNode run.source .source run.source (rowsMetadata run.sourceRows)).addTarget
          run.applied .transform run.label run.metadata).addTarget
        run.generated .output run.output (rowsMetadata run.outputRows) := rfl

theorem extends_record (g : LineageGraph) (run : Run) : g.Extends (g.record run) := by
  rw [record_eq]
  exact (extends_addNode.trans extends_addTarget).trans extends_addTarget

theorem holds_record (g : LineageGraph) (run : Run) : (g.record run).Holds run := by
  rw [record_eq]
  constructor
  · exact extends_addTarget.hasNode (extends_addTarget.hasNode hasNode_addNode)
  · exact extends_addTarget.hasNode (hasNode_addTarget (e := run.applied))
  · exact hasNode_addTarget (e := run.generated)
  · exact extends_addTarget.hasEdge hasEdge_addTarget
  · exact hasEdge_addTarget

theorem record_of_holds (h : g.Holds run) : g.record run = g := by
  rw [record_eq, addNode_of_hasNode h.sourceNode, addTarget_of_has h.transformNode h.applied,
    addTarget_of_has h.outputNode h.generated]

theorem Sound.record (h : g.Sound) (run : Run) : (g.record run).Sound := by
  rw [record_eq]
  refine .addTarget (.addTarget h.addNode ?_) ?_
  · exact hasNode_addNode
  · exact hasNode_addTarget (e := run.applied)

theorem mem_edges_record {e : Edge} (h : e ∈ (g.record run).edges) :
    e ∈ g.edges ∨ e = run.applied ∨ e = run.generated := by
  rw [record_eq] at h
  rcases mem_edges_addTarget h with h | h
  · rcases mem_edges_addTarget h with h | h
    · rw [edges_addNode] at h
      exact .inl h
    · exact .inr (.inl h)
  · exact .inr (.inr h)

theorem shows_record {P : Edge → Prop} (hapart : ∀ a b, P a → P b → a.id = b.id → a = b)
    (hedges : ∀ e ∈ g.edges, P e) (happlied : P run.applied) (hgenerated : P run.generated) :
    (g.record run).Shows run.source run.transform run.output := by
  have hstart : ∀ e ∈ (g.addNode run.source .source run.source
      (rowsMetadata run.sourceRows)).edges, P e := by
    rwa [edges_addNode]
  have hadded : run.applied ∈ (g.record run).edges ∧ run.generated ∈ (g.record run).edges := by
    rw [record_eq]
    generalize g.addNode run.source .source run.source (rowsMetadata run.sourceRows) = start
      at hstart ⊢
    have hmiddle : ∀ e ∈ (start.addTarget run.applied .transform run.label run.metadata).edges,
        P e := by
      intro e he
      rcases mem_edges_addTarget he with he | rfl
      · exact hstart e he
      · exact happlied
    constructor
    · refine extends_addTarget.edges.subset (mem_addTarget_self fun e he hid => ?_)
      exact hapart e run.applied (hstart e he) happlied hid
    · refine mem_addTarget_self fun e he hid => ?_
      exact hapart e run.generated (hmiddle e he) hgenerated hid
  have hholds := holds_record g run
  exact ⟨hholds.sourceNode, hholds.transformNode, hholds.outputNode, hadded.1, hadded.2⟩

end
end LineageGraph
end TablePlanner
