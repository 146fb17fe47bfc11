import TablePlanner.Proofs.Lineage.Graph

namespace TablePlanner
open Lineage

namespace Lineage

/-- What a node tells besides its place. -/
structure Mark where
  kind : Kind
  label : String
  metadata : List (String × Json.Value)

def Node.mark (n : Node) : Mark := ⟨n.kind, n.label, n.metadata⟩

def Run.mark? (r : Run) (id : String) : Option Mark :=
  if r.source = id then some ⟨.source, r.source, LineageGraph.rowsMetadata r.sourceRows⟩
  else if r.transform = id then some ⟨.transform, r.label, r.metadata⟩
  else if r.output = id then some ⟨.output, r.output, LineageGraph.rowsMetadata r.outputRows⟩
  else none

end Lineage

namespace LineageGraph

def mark? (g : LineageGraph) (id : String) : Option Mark :=
  (g.nodes.find? (·.id == id)).map Node.mark

variable {g : LineageGraph} {id other source target label : String} {kind : Kind}
  {metadata : List (String × Json.Value)}

theorem mark?_addNode : (g.addNode id kind label metadata).mark? other =
    (g.mark? other).or (if id = other then some ⟨kind, label, metadata⟩ else none) := by
  unfold addNode mark?
  split
  · next hold =>
    by_cases hid : id = other
    · obtain ⟨n, hn⟩ : ∃ n, g.nodes.find? (·.id == other) = some n := by
        rw [← Option.isSome_iff_exists, List.find?_isSome, ← hid]
        simpa using hold
      rw [hn]
      rfl
    · rw [if_neg hid, Option.or_none]
  · rw [List.find?_append, Option.map_or]
    by_cases hid : id = other
    · rw [if_pos hid, hid, List.find?_cons_of_pos (by simp)]
      rfl
    · rw [if_neg hid, List.find?_cons_of_neg (by simpa using hid)]
      rfl

theorem mark?_addEdge : (g.addEdge source target label).mark? id = g.mark? id := by
  unfold addEdge
  dsimp only
  split <;> rfl

theorem mark?_record (g : LineageGraph) (run : Run) (id : String) :
    (g.record run).mark? id = (g.mark? id).or (run.mark? id) := by
  simp only [record, mark?_addEdge, mark?_addNode, Option.or_assoc]
  congr 1
  unfold Run.mark?
  split
  · rfl
  · split <;> rfl

theorem mark?_foldl_record (runs : List Run) (g : LineageGraph) (id : String) :
    (runs.foldl record g).mark? id = (g.mark? id).or (runs.findSome? (·.mark? id)) := by
  induction runs generalizing g with
  | nil => exact Option.or_none.symm
  | cons run runs ih =>
    rw [List.foldl_cons, ih, mark?_record, Option.or_assoc, List.findSome?_cons]
    cases run.mark? id <;> rfl

theorem exists_node_of_mark? {m : Mark} (h : g.mark? id = some m) :
    ∃ n ∈ g.nodes, n.id = id ∧ n.mark = m := by
  obtain ⟨n, hn, hm⟩ := Option.map_eq_some_iff.1 h
  exact ⟨n, List.mem_of_find?_eq_some hn, by simpa using List.find?_some hn, hm⟩

def ofRuns (runs : List Run) : LineageGraph := runs.foldl record empty

section
variable {earlier : List Run} {first : Run} {m : Mark}

theorem findSome?_mark?_of_sources (h : ∀ r ∈ earlier, r.transform ≠ id ∧ r.output ≠ id) :
    (earlier.findSome? (·.mark? id) = none ↔ ∀ r ∈ earlier, r.source ≠ id) ∧
      ∀ m, earlier.findSome? (·.mark? id) = some m → m.kind = .source := by
  -- Runs that know the identifier as their source at most bring a source for it or nothing.
  have hmark : ∀ r ∈ earlier, r.mark? id =
      if r.source = id then some ⟨.source, r.source, rowsMetadata r.sourceRows⟩ else none := by
    intro r hr
    rw [Run.mark?, if_neg (h r hr).1, if_neg (h r hr).2]
  constructor
  · rw [List.findSome?_eq_none_iff]
    refine forall₂_congr fun r hr => ?_
    simp [hmark r hr]
  · intro m hm
    obtain ⟨r, hr, hrm⟩ := List.exists_of_findSome?_eq_some hm
    rw [hmark r hr] at hrm
    split at hrm
    · cases hrm
      rfl
    · cases hrm

/-- A graph made by recording runs tells of the transform or the output of a run what the run
brought, if no run before had that name but as its source, and says so by the kind. -/
theorem mark?_of_first (later : List Run) (hfirst : first.mark? id = some m)
    (hkind : m.kind ≠ .source) (h : ∀ r ∈ earlier, r.transform ≠ id ∧ r.output ≠ id) :
    ∃ told, (ofRuns (earlier ++ first :: later)).mark? id = some told ∧
      (told.kind = m.kind ↔ ∀ r ∈ earlier, r.source ≠ id) ∧ (told.kind = m.kind → told = m) := by
  obtain ⟨hnone, hsource⟩ := findSome?_mark?_of_sources h
  have hempty : empty.mark? id = none := rfl
  rw [ofRuns, mark?_foldl_record, hempty, Option.none_or, List.findSome?_append,
    List.findSome?_cons, hfirst]
  cases hbefore : earlier.findSome? (·.mark? id) with
  | none => exact ⟨m, rfl, by simpa using hnone.1 hbefore, fun _ => rfl⟩
  | some told =>
    have hother : told.kind ≠ m.kind := fun hsame => hkind (hsame ▸ hsource told hbefore)
    have htaken : ¬ ∀ r ∈ earlier, r.source ≠ id := by
      rw [← hnone, hbefore]
      exact Option.some_ne_none told
    exact ⟨told, rfl, iff_of_false hother htaken, fun hsame => absurd hsame hother⟩

end
end LineageGraph
end TablePlanner
