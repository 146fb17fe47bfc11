import Mathlib.Data.List.DropRight
import TablePlanner.Proofs.Json.Literal
import TablePlanner.Proofs.Lineage.Edges

/-! A node stands on the place of the index at which it came, and nothing takes a node away but a
clearing of the whole graph. 32 bits hold the first 42949671 places of the grid. -/
namespace TablePlanner
open Lineage

section
variable {α : Type*} [BEq α] [LawfulBEq α]

theorem eraseDups_concat (xs : List α) (x : α) [Decidable (x ∈ xs)] :
    (xs ++ [x]).eraseDups = if x ∈ xs then xs.eraseDups else xs.eraseDups ++ [x] := by
  rw [List.eraseDups_append]
  split
  · next hold => simp [List.removeAll, hold]
  · next hnew => simp [List.removeAll, hnew, List.eraseDups_cons]

theorem eraseDups_of_nodup {xs : List α} (h : xs.Nodup) : xs.eraseDups = xs := by
  induction xs with
  | nil => rfl
  | cons x xs ih =>
    obtain ⟨hx, hxs⟩ := List.nodup_cons.1 h
    have hall : xs.filter (fun y => !y == x) = xs := by
      rw [List.filter_eq_self]
      intro y hy
      simpa using fun hyx : y = x => hx (hyx ▸ hy)
    rw [List.eraseDups_cons, hall, ih hxs]

end

namespace Lineage

/-- The identifiers that a call names nodes by, in the order in which it adds them. -/
def Call.ids : Call → List String
  | node id .. => [id]
  | edge .. => []
  | record run => [run.source, run.transform, run.output]

def namedBy (calls : List Call) : List String := calls.flatMap Call.ids

/-- What changes a lineage graph: a call that adds to it, or a clearing. -/
inductive Step where
  | call (c : Call)
  | clear

def Step.call? : Step → Option Call
  | call c => some c
  | clear => none

/-- The calls after the last clearing. -/
def sinceClear (steps : List Step) : List Call :=
  (steps.rtakeWhile (·.call?.isSome)).filterMap Step.call?

theorem sinceClear_append_call (steps : List Step) (c : Call) :
    sinceClear (steps ++ [.call c]) = sinceClear steps ++ [c] := by
  rw [sinceClear, List.rtakeWhile_concat_pos _ _ _ rfl, List.filterMap_append]
  rfl

theorem sinceClear_append_clear (steps : List Step) : sinceClear (steps ++ [.clear]) = [] := by
  rw [sinceClear, List.rtakeWhile_concat_neg _ _ _ (by decide)]
  rfl

theorem sinceClear_map_call (calls : List Call) : sinceClear (calls.map .call) = calls := by
  have hall : (calls.map Step.call).rtakeWhile (·.call?.isSome) = calls.map Step.call := by
    rw [List.rtakeWhile_eq_self_iff]
    simp [Step.call?]
  rw [sinceClear, hall, List.filterMap_map]
  exact List.filterMap_some

namespace Position

/-- The number whose column and row an index gets. -/
def slot (n : Nat) : Int32 := if n ≤ 2147483647 then Int32.ofNat n else 2147483647 / 250

/-- How many places of the grid 32 bits hold: three in each of 14316557 rows. -/
def capacity : Nat := 42949671

/-- Whether a product or a sum on the way to the place of an index leaves 32 bits. -/
def Overflows (n : Nat) : Prop :=
  (slot n % 3).toBitVec.smulOverflow (250 : Int32).toBitVec ∨
    (slot n % 3 * 250).toBitVec.saddOverflow (100 : Int32).toBitVec ∨
    (slot n / 3).toBitVec.smulOverflow (150 : Int32).toBitVec ∨
    (slot n / 3 * 150).toBitVec.saddOverflow (100 : Int32).toBitVec

/-- Whether a place is the one of a number on a grid without bounds. -/
structure OnGrid (p : Position) (k : Nat) : Prop where
  x : p.x.toInt = 250 * (k % 3 : Nat) + 100
  y : p.y.toInt = 150 * (k / 3 : Nat) + 100

section
variable {p : Position} {a b : Int32} {k m n : Nat}

theorem OnGrid.unique (h : p.OnGrid m) (h' : p.OnGrid n) : m = n := by
  have hx := h.x.symm.trans h'.x
  have hy := h.y.symm.trans h'.y
  omega

theorem smulOverflow_iff : a.toBitVec.smulOverflow b.toBitVec ↔
    2147483647 < a.toInt * b.toInt ∨ a.toInt * b.toInt < -2147483648 := by
  simp only [BitVec.smulOverflow, Int32.toInt_toBitVec, Bool.or_eq_true, decide_eq_true_eq]
  omega

theorem saddOverflow_iff : a.toBitVec.saddOverflow b.toBitVec ↔
    2147483647 < a.toInt + b.toInt ∨ a.toInt + b.toInt < -2147483648 := by
  simp only [BitVec.saddOverflow, Int32.toInt_toBitVec, Bool.or_eq_true, decide_eq_true_eq]
  omega

theorem toInt_mul_exact (h : ¬ a.toBitVec.smulOverflow b.toBitVec) :
    (a * b).toInt = a.toInt * b.toInt :=
  BitVec.toInt_mul_of_not_smulOverflow h

theorem toInt_add_exact (h : ¬ a.toBitVec.saddOverflow b.toBitVec) :
    (a + b).toInt = a.toInt + b.toInt :=
  BitVec.toInt_add_of_not_saddOverflow h

theorem nth_eq (n : Nat) : nth n = ⟨slot n % 3 * 250 + 100, slot n / 3 * 150 + 100⟩ := rfl

theorem toInt_slot (h : n ≤ 2147483647) : (slot n).toInt = n := by
  rw [slot, if_pos h]
  exact Int32.toInt_ofNat_of_lt (by omega)

theorem toInt_slot_of_lt (h : 2147483647 < n) : (slot n).toInt = (8589934 : Nat) := by
  rw [slot, if_neg (by omega)]
  rfl

theorem toInt_column (h : a.toInt = k) : (a % 3).toInt = (k % 3 : Nat) := by
  have hthree : (3 : Int32).toInt = 3 := rfl
  rw [Int32.toInt_mod, h, hthree]
  rfl

theorem toInt_row (h : a.toInt = k) : (a / 3).toInt = (k / 3 : Nat) := by
  have hthree : (3 : Int32).toInt = 3 := rfl
  have hquotient : (k : Int).tdiv 3 = (k / 3 : Nat) := rfl
  have hrange := a.toInt_lt
  rw [Int32.toInt_div, h, hthree, hquotient]
  exact Int.bmod_eq_of_le (by omega) (by omega)

/-- No column leaves 32 bits. A row does so by its product or, if it is the first to do so, by its
sum alone. -/
theorem overflows_iff (h : (slot n).toInt = k) : Overflows n ↔ capacity ≤ k := by
  have h250 : (250 : Int32).toInt = 250 := rfl
  have h100 : (100 : Int32).toInt = 100 := rfl
  have h150 : (150 : Int32).toInt = 150 := rfl
  have hcolumn : ¬ (slot n % 3).toBitVec.smulOverflow (250 : Int32).toBitVec := by
    rw [smulOverflow_iff, toInt_column h, h250]
    omega
  have hx : ¬ (slot n % 3 * 250).toBitVec.saddOverflow (100 : Int32).toBitVec := by
    rw [saddOverflow_iff, toInt_mul_exact hcolumn, toInt_column h, h250, h100]
    omega
  have hrow : (slot n / 3).toBitVec.smulOverflow (150 : Int32).toBitVec ↔
      2147483647 < (k / 3 : Nat) * (150 : Int) := by
    rw [smulOverflow_iff, toInt_row h, h150]
    omega
  by_cases hproduct : (slot n / 3).toBitVec.smulOverflow (150 : Int32).toBitVec
  · have hlarge := hrow.1 hproduct
    refine iff_of_true (.inr (.inr (.inl hproduct))) ?_
    unfold capacity
    omega
  · have hsmall := mt hrow.2 hproduct
    rw [Overflows, or_iff_right hcolumn, or_iff_right hx, or_iff_right hproduct, saddOverflow_iff,
      toInt_mul_exact hproduct, toInt_row h, h150, h100, capacity]
    omega

theorem onGrid_nth (h : (slot n).toInt = k) (hfits : ¬ Overflows n) : (nth n).OnGrid k := by
  simp only [Overflows, not_or] at hfits
  obtain ⟨hcolumn, hx, hrow, hy⟩ := hfits
  constructor
  · calc (nth n).x.toInt = (slot n % 3 * 250 + 100).toInt := by rw [nth_eq]
      _ = (slot n % 3).toInt * 250 + 100 := by
        rw [toInt_add_exact hx, toInt_mul_exact hcolumn]
        rfl
      _ = 250 * (k % 3 : Nat) + 100 := by rw [toInt_column h, Int.mul_comm]
  · calc (nth n).y.toInt = (slot n / 3 * 150 + 100).toInt := by rw [nth_eq]
      _ = (slot n / 3).toInt * 150 + 100 := by
        rw [toInt_add_exact hy, toInt_mul_exact hrow]
        rfl
      _ = 150 * (k / 3 : Nat) + 100 := by rw [toInt_row h, Int.mul_comm]

theorem nth_of_lt_capacity (h : n < capacity) : ¬ Overflows n ∧ (nth n).OnGrid n := by
  have hslot : (slot n).toInt = n := toInt_slot (by unfold capacity at h; omega)
  have hfits : ¬ Overflows n := by
    rw [overflows_iff hslot]
    omega
  exact ⟨hfits, onGrid_nth hslot hfits⟩

theorem nth_of_gt (h : 2147483647 < n) : ¬ Overflows n ∧ (nth n).OnGrid 8589934 := by
  have hslot := toInt_slot_of_lt h
  have hfits : ¬ Overflows n := by
    rw [overflows_iff hslot]
    decide
  exact ⟨hfits, onGrid_nth hslot hfits⟩

end
end Position
end Lineage

namespace LineageGraph

def step (g : LineageGraph) : Step → LineageGraph
  | .call c => g.call c
  | .clear => empty

def ofSteps (steps : List Step) : LineageGraph := steps.foldl step empty

/-- Whether the nodes of a graph are some identifiers, each once and in the order in which they
first come, on the places of their indices. -/
structure LaidOut (g : LineageGraph) (ids : List String) : Prop where
  ids : g.nodes.map (·.id) = ids.eraseDups
  places : g.nodes.map (·.position) = (List.range g.nodes.length).map Position.nth

section
variable {g : LineageGraph} {ids : List String} {id source target label : String} {kind : Kind}
  {metadata : List (String × Json.Value)} {steps : List Step}

theorem nodes_addEdge : (g.addEdge source target label).nodes = g.nodes := by
  unfold addEdge
  dsimp only
  split <;> rfl

theorem nodes_addNode_of_new (h : ¬ g.HasNode id) : (g.addNode id kind label metadata).nodes =
    g.nodes ++ [⟨id, label, kind, metadata, .nth g.nodes.length⟩] := by
  have hnew : g.nodes.any (·.id == id) = false := by simpa [HasNode] using h
  rw [addNode, hnew]
  rfl

namespace LaidOut

theorem hasNode_iff (h : g.LaidOut ids) : g.HasNode id ↔ id ∈ ids := by
  rw [← List.mem_eraseDups, ← h.ids, List.mem_map]
  rfl

theorem addNode (h : g.LaidOut ids) : (g.addNode id kind label metadata).LaidOut (ids ++ [id]) := by
  by_cases hheld : g.HasNode id
  · rw [addNode_of_hasNode hheld]
    refine ⟨?_, h.places⟩
    rw [eraseDups_concat, if_pos (h.hasNode_iff.1 hheld)]
    exact h.ids
  · constructor
    · rw [nodes_addNode_of_new hheld, List.map_append, h.ids, eraseDups_concat,
        if_neg (mt h.hasNode_iff.2 hheld)]
      rfl
    · rw [nodes_addNode_of_new hheld, List.map_append, h.places, List.length_append,
        List.length_singleton, List.range_succ, List.map_append]
      rfl

theorem addEdge (h : g.LaidOut ids) : (g.addEdge source target label).LaidOut ids where
  ids := by
    rw [nodes_addEdge]
    exact h.ids
  places := by
    rw [nodes_addEdge]
    exact h.places

theorem addTarget (h : g.LaidOut ids) (e : Edge) :
    (g.addTarget e kind label metadata).LaidOut (ids ++ [e.target]) :=
  h.addNode.addEdge

theorem call (h : g.LaidOut ids) (c : Call) : (g.call c).LaidOut (ids ++ c.ids) := by
  cases c with
  | node id kind label metadata => exact h.addNode
  | edge source target label =>
    rw [Call.ids, List.append_nil]
    exact h.addEdge
  | record run =>
    rw [Call.ids, List.append_cons, List.append_cons]
    exact (h.addNode.addTarget run.applied).addTarget run.generated

end LaidOut

theorem laidOut_ofCalls (calls : List Call) : (ofCalls calls).LaidOut (namedBy calls) := by
  induction calls using List.reverseRecOn with
  | nil => exact ⟨rfl, rfl⟩
  | append_singleton calls c ih =>
    rw [ofCalls, List.foldl_append, namedBy, List.flatMap_append, List.flatMap_singleton]
    exact ih.call c

theorem ofSteps_eq_ofCalls (steps : List Step) : ofSteps steps = ofCalls (sinceClear steps) := by
  induction steps using List.reverseRecOn with
  | nil => rfl
  | append_singleton steps s ih =>
    rw [ofSteps, List.foldl_append]
    cases s with
    | call c =>
      rw [sinceClear_append_call, ofCalls, List.foldl_append]
      exact congrArg (LineageGraph.call · c) ih
    | clear =>
      rw [sinceClear_append_clear]
      rfl

theorem laidOut_ofSteps (steps : List Step) :
    (ofSteps steps).LaidOut (namedBy (sinceClear steps)) := by
  rw [ofSteps_eq_ofCalls]
  exact laidOut_ofCalls (sinceClear steps)

theorem position_of_getElem? {n : Nat} {node : Node}
    (h : (ofSteps steps).nodes[n]? = some node) : node.position = .nth n := by
  have hplace := congrArg (·[n]?) (laidOut_ofSteps steps).places
  obtain ⟨hn, rfl⟩ := List.getElem?_eq_some_iff.1 h
  simpa [hn] using hplace

end

/-- After any steps the nodes are the identifiers that were named since the last clearing, each once
and in the order in which they first came. Those within the capacity of the grid stand on it by
their indices, so no two of them share a place; one with an index of more than 31 bits stands where
the node with the index 8589934 does. No place of either kind is computed out of 32 bits. -/
theorem nodes_stand_on_grid (steps : List Step) :
    (ofSteps steps).nodes.map (·.id) = (namedBy (sinceClear steps)).eraseDups ∧
    (∀ n node, (ofSteps steps).nodes[n]? = some node →
      (n < Position.capacity → ¬ Position.Overflows n ∧ node.position.OnGrid n) ∧
      (2147483647 < n → ¬ Position.Overflows n ∧ node.position.OnGrid 8589934)) ∧
    (∀ m n a b, m < n → n < Position.capacity → (ofSteps steps).nodes[m]? = some a →
      (ofSteps steps).nodes[n]? = some b → a.position ≠ b.position) := by
  refine ⟨(laidOut_ofSteps steps).ids, fun n node hnode => ?_,
    fun m n a b hless hn ha hb hplace => ?_⟩
  · rw [position_of_getElem? hnode]
    exact ⟨Position.nth_of_lt_capacity, Position.nth_of_gt⟩
  · obtain ⟨-, hfirst⟩ := Position.nth_of_lt_capacity (Nat.lt_trans hless hn)
    obtain ⟨-, hsecond⟩ := Position.nth_of_lt_capacity hn
    rw [position_of_getElem? ha, position_of_getElem? hb] at hplace
    rw [hplace] at hfirst
    exact Nat.ne_of_lt hless (hfirst.unique hsecond)

def resettled : List Step :=
  [.call (.node "old" .source "old" []), .clear,
    .call (.record ⟨"sales", 3, "by-region", "Smart Transform", [], "regions", 2⟩),
    .call (.node "sales" .output "again" []), .call (.edge "sales" "regions" "kept"),
    .call (.node "stock" .source "stock" [])]

def crowd (count : Nat) : List Step :=
  ((List.range count).map fun i => Call.node i.repr .source "" []).map .call

theorem namedBy_crowd (count : Nat) :
    namedBy (sinceClear (crowd count)) = (List.range count).map Nat.repr := by
  rw [crowd, sinceClear_map_call, namedBy, List.flatMap_map]
  exact List.map_eq_flatMap.symm

theorem length_crowd (count : Nat) : (ofSteps (crowd count)).nodes.length = count := by
  have hinj : Function.Injective Nat.repr := fun m n h =>
    Json.Document.toDigits_inj (by simpa [Nat.toList_repr] using congrArg String.toList h)
  have hids := (laidOut_ofSteps (crowd count)).ids
  rw [namedBy_crowd, eraseDups_of_nodup (List.nodup_range.map hinj)] at hids
  simpa using congrArg List.length hids

theorem exists_crowd_node {count n : Nat} (h : n < count) :
    ∃ node, (ofSteps (crowd count)).nodes[n]? = some node ∧ node.position = .nth n := by
  rw [← length_crowd count] at h
  have hnode := List.getElem?_eq_getElem h
  exact ⟨_, hnode, position_of_getElem? hnode⟩

theorem resettled_stands_on_grid :
    (∃ a b, (ofSteps resettled).nodes[0]? = some a ∧ (ofSteps resettled).nodes[3]? = some b ∧
      a.id = "sales" ∧ b.id = "stock" ∧ 3 < Position.capacity ∧ b.position.OnGrid 3 ∧
      a.position ≠ b.position) ∧
    ∃ node, (ofSteps (crowd 2147483649)).nodes[2147483648]? = some node ∧
      2147483647 < 2147483648 ∧ node.position.OnGrid 8589934 := by
  have hfour := nodes_stand_on_grid resettled
  have hmany := nodes_stand_on_grid (crowd 2147483649)
  constructor
  · obtain ⟨a, ha, hsales⟩ :
        ∃ a, (ofSteps resettled).nodes[0]? = some a ∧ a.id = "sales" := ⟨_, rfl, rfl⟩
    obtain ⟨b, hb, hstock⟩ :
        ∃ b, (ofSteps resettled).nodes[3]? = some b ∧ b.id = "stock" := ⟨_, rfl, rfl⟩
    have hbehind : 3 < Position.capacity := by decide
    exact ⟨a, b, ha, hb, hsales, hstock, hbehind, ((hfour.2.1 3 b hb).1 hbehind).2,
      hfour.2.2 0 3 a b (by decide) hbehind ha hb⟩
  · obtain ⟨node, hnode, -⟩ := exists_crowd_node (show 2147483648 < 2147483649 by decide)
    exact ⟨node, hnode, by decide, ((hmany.2.1 _ node hnode).2 (by decide)).2⟩

/-- The first node behind the capacity of the grid is computed out of 32 bits and comes to stand
above the grid; a node behind 31 bits shares its place with an early one. -/
theorem crowd_leaves_grid :
    (∃ node, (ofSteps (crowd 42949672)).nodes[42949671]? = some node ∧
      Position.Overflows 42949671 ∧ node.position.y.toInt = -2147483646 ∧
      ¬ node.position.OnGrid 42949671) ∧
    ∃ a b, (ofSteps (crowd 2147483649)).nodes[8589934]? = some a ∧
      (ofSteps (crowd 2147483649)).nodes[2147483648]? = some b ∧ a.position = b.position := by
  constructor
  · obtain ⟨node, hnode, hplace⟩ := exists_crowd_node (show 42949671 < 42949672 by decide)
    have hy : node.position.y.toInt = -2147483646 := by
      rw [hplace]
      decide
    refine ⟨node, hnode, ?_, hy, fun hgrid => ?_⟩
    · exact (Position.overflows_iff (Position.toInt_slot (by decide))).2 (by decide)
    · have hexact := hgrid.y
      omega
  · obtain ⟨a, ha, hfirst⟩ := exists_crowd_node (show 8589934 < 2147483649 by decide)
    obtain ⟨b, hb, hsecond⟩ := exists_crowd_node (show 2147483648 < 2147483649 by decide)
    refine ⟨a, b, ha, hb, ?_⟩
    rw [hfirst, hsecond]
    decide

end LineageGraph
end TablePlanner
