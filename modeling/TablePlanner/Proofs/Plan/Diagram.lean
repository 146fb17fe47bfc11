import Mathlib.Data.List.Nodup
import TablePlanner.Plan.Diagram
import TablePlanner.Proofs.Json.Literal

namespace TablePlanner

/-- The recipes that the diagram of a plan shows, with their places: a default recipe only where it
stands alone. -/
def Plan.shown (p : Plan) : List (Recipe × Nat) :=
  if 1 < p.recipes.length then p.recipes.zipIdx.filter (!·.1.isDefault) else p.recipes.zipIdx

namespace Diagram

structure StandsFor (r : Recipe × Nat) (n : DiagramNode) : Prop where
  id : n.id = "transform-" ++ toString r.2
  kind : n.kind = "transform"
  label : n.label = r.1.title

/-- Whether a diagram is the chain from the source through nodes for some recipes to the export. -/
structure IsChain (shown : List (Recipe × Nat)) (d : Diagram) : Prop where
  nodes : ∃ first middle last, d.nodes = first :: middle ++ [last] ∧
    (first.id = "source-1" ∧ first.kind = "source") ∧
    (last.id = "export-1" ∧ last.kind = "output") ∧ List.Forall₂ StandsFor shown middle
  distinct : (d.nodes.map (·.id)).Nodup
  connections : ∀ k c, d.connections[k]? = some c ↔
    ∃ a b, d.nodes[k]? = some a ∧ d.nodes[k + 1]? = some b ∧ c = ⟨a.id, b.id⟩
  places : ∀ (k : Nat) n, d.nodes[k]? = some n → n.x.toInt = 100 + 220 * (k : Int)

section
variable {last : String} {x : Int32} {drawn : List (Nat × Recipe)}

theorem nodes_chain (last : String) (x : Int32) (drawn : List (Nat × Recipe)) :
    ∃ middle y, (chain last x drawn).nodes = middle ++ [exportNode y] ∧
      List.Forall₂ StandsFor (drawn.map Prod.swap) middle := by
  induction drawn generalizing last x with
  | nil => exact ⟨[], x, rfl, .nil⟩
  | cons r drawn ih =>
    obtain ⟨middle, y, hnodes, hmiddle⟩ := ih (recipeNode r.1 r.2 x).id (x + spacing)
    refine ⟨recipeNode r.1 r.2 x :: middle, y, ?_, .cons ⟨rfl, rfl, rfl⟩ hmiddle⟩
    rw [chain, hnodes]
    rfl

theorem connections_chain (last : String) (x : Int32) (drawn : List (Nat × Recipe)) :
    (chain last x drawn).connections =
      List.zipWith Connection.mk (last :: (chain last x drawn).nodes.map (·.id))
        ((chain last x drawn).nodes.map (·.id)) := by
  induction drawn generalizing last x with
  | nil => rfl
  | cons r drawn ih =>
    rw [chain, ih]
    rfl

theorem ids_of_standsFor {shown : List (Recipe × Nat)} {middle : List DiagramNode}
    (h : List.Forall₂ StandsFor shown middle) :
    middle.map (·.id) = (shown.map Prod.snd).map fun i => "transform-" ++ toString i := by
  induction h with
  | nil => rfl
  | cons hn _ ih => rw [List.map_cons, List.map_cons, List.map_cons, hn.id, ih]

theorem transform_inj {i j : Nat} (h : "transform-" ++ toString i = "transform-" ++ toString j) :
    i = j := by
  have hlists := congrArg String.toList h
  rw [String.toList_append, String.toList_append] at hlists
  have hdigits := List.append_cancel_left hlists
  exact Json.Document.toDigits_inj (by simpa [Nat.toList_repr] using hdigits)

theorem transform_ne {id : String} (i : Nat) (h : ¬ "transform-".toList <+: id.toList) :
    "transform-" ++ toString i ≠ id := by
  rintro rfl
  exact h (by rw [String.toList_append]; exact List.prefix_append _ _)

theorem toInt_add_spacing (hx : 0 ≤ x.toInt) (h : x.toInt + 220 ≤ 2147483647) :
    (x + spacing).toInt = x.toInt + 220 := by
  have hspacing : spacing.toInt = 220 := rfl
  rw [Int32.toInt_add, hspacing]
  exact Int.bmod_eq_of_le (by omega) (by omega)

theorem x_of_mem_chain (hx : 0 ≤ x.toInt) (h : x.toInt + 220 * drawn.length ≤ 2147483647)
    {k : Nat} {n : DiagramNode} (hn : (chain last x drawn).nodes[k]? = some n) :
    n.x.toInt = x.toInt + 220 * k := by
  induction drawn generalizing last x k with
  | nil =>
    cases k with
    | zero =>
      obtain rfl := Option.some.inj hn
      simp [exportNode]
    | succ k => cases hn
  | cons r drawn ih =>
    rw [List.length_cons] at h
    cases k with
    | zero =>
      obtain rfl := Option.some.inj hn
      simp [recipeNode]
    | succ k =>
      -- No sum leaves 32 bits if the last one does not.
      have hnext : (x + spacing).toInt = x.toInt + 220 := toInt_add_spacing hx (by omega)
      rw [ih (by omega) (by omega) hn, hnext]
      omega

end
end Diagram

namespace Plan
open Diagram

theorem drawn_eq (p : Plan) : p.drawn = p.shown.map Prod.swap := by
  have hdrawn : p.drawn = (p.recipes.zipIdx.map Prod.swap).filter fun r =>
      !(r.2.isDefault && decide (1 < p.recipes.length)) := rfl
  rw [hdrawn, shown, List.filter_map]
  by_cases h : 1 < p.recipes.length
  · simp [h, Function.comp_def]
  · simp [h, Function.comp_def]

theorem nodup_shown_places (p : Plan) : (p.shown.map Prod.snd).Nodup := by
  have hall : (p.recipes.zipIdx.map Prod.snd).Nodup := by
    rw [List.zipIdx_map_snd]
    exact List.nodup_range'
  unfold shown
  split
  · exact hall.sublist (List.filter_sublist.map Prod.snd)
  · exact hall

theorem length_shown_le (p : Plan) : p.shown.length ≤ p.recipes.length := by
  unfold shown
  split
  · exact Nat.le_trans (List.length_filter_le _ _) (Nat.le_of_eq List.length_zipIdx)
  · exact Nat.le_of_eq List.length_zipIdx

theorem nodes_diagram (p : Plan) : ∃ middle y,
    p.diagram.nodes = sourceNode :: middle ++ [exportNode y] ∧
      List.Forall₂ StandsFor p.shown middle := by
  obtain ⟨middle, y, hnodes, hmiddle⟩ :=
    nodes_chain sourceNode.id (sourceNode.x + spacing) p.drawn
  have hback : p.drawn.map Prod.swap = p.shown := by
    rw [drawn_eq, List.map_map, Prod.swap_swap_eq, List.map_id]
  exact ⟨middle, y, congrArg (sourceNode :: ·) hnodes, hback ▸ hmiddle⟩

theorem connections_diagram (p : Plan) :
    p.diagram.connections =
      List.zipWith (fun a b => ⟨a.id, b.id⟩) p.diagram.nodes p.diagram.nodes.tail := by
  have hchain : p.diagram.connections =
      List.zipWith Connection.mk (p.diagram.nodes.map (·.id)) (p.diagram.nodes.tail.map (·.id)) :=
    connections_chain sourceNode.id (sourceNode.x + spacing) p.drawn
  rw [hchain, List.zipWith_map]

theorem nodup_ids_diagram (p : Plan) : (p.diagram.nodes.map (·.id)).Nodup := by
  obtain ⟨middle, y, hnodes, hmiddle⟩ := nodes_diagram p
  have htransforms : (middle.map (·.id)).Nodup := by
    rw [ids_of_standsFor hmiddle]
    exact (nodup_shown_places p).map fun _ _ => transform_inj
  have hother : ∀ id, ¬ "transform-".toList <+: id.toList → id ∉ middle.map (·.id) := by
    intro id hid hmem
    rw [ids_of_standsFor hmiddle] at hmem
    obtain ⟨i, -, hi⟩ := List.mem_map.1 hmem
    exact transform_ne i hid hi
  have hsource : "source-1" ∉ middle.map (·.id) := hother _ (by decide)
  have hexport : "export-1" ∉ middle.map (·.id) := hother _ (by decide)
  rw [hnodes, List.map_append, List.map_cons, List.map_singleton, List.cons_append,
    List.nodup_cons, ← List.concat_eq_append]
  refine ⟨?_, htransforms.concat hexport⟩
  simpa [sourceNode, exportNode] using hsource

/-- The diagram of a plan of fewer than nine million recipes is one chain, whatever the recipes. -/
theorem diagram_isChain (p : Plan) (h : p.recipes.length < 9000000) :
    p.diagram.IsChain p.shown where
  nodes := by
    obtain ⟨middle, y, hnodes, hmiddle⟩ := nodes_diagram p
    exact ⟨_, middle, _, hnodes, ⟨rfl, rfl⟩, ⟨rfl, rfl⟩, hmiddle⟩
  distinct := nodup_ids_diagram p
  connections k c := by
    rw [connections_diagram, List.getElem?_zipWith_eq_some]
    simp only [List.getElem?_tail, eq_comm]
  places k n hn := by
    have hsource : sourceNode.x.toInt = 100 := rfl
    have hfirst : (sourceNode.x + spacing).toInt = 320 := rfl
    have hlength : p.drawn.length ≤ p.recipes.length := by
      rw [drawn_eq, List.length_map]
      exact length_shown_le p
    cases k with
    | zero =>
      obtain rfl := Option.some.inj hn
      exact hsource
    | succ k =>
      have hx := x_of_mem_chain (by omega) (by omega) hn
      rw [hx, hfirst]
      omega

def interleaved : Plan where
  recipes := [⟨"default_table", "All", [.selectAll]⟩, ⟨"t", "First", [.limit 1]⟩,
    ⟨"default_table", "All again", []⟩, ⟨"t", "Second", [.orderBy "Amount" .descending]⟩]
  layout := []
  isValidRequest := false

theorem interleaved_isChain :
    interleaved.recipes.length < 9000000 ∧ interleaved.diagram.IsChain interleaved.shown ∧
      interleaved.diagram.nodes.map (·.id) =
        ["source-1", "transform-1", "transform-3", "export-1"] :=
  ⟨by decide, diagram_isChain interleaved (by decide), by decide⟩

end Plan
end TablePlanner
