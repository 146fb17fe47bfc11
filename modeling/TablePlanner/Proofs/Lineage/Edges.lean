import Mathlib.Data.List.Induction
import TablePlanner.Proofs.Lineage.Graph

/-! An edge is told by the text of its two ends joined by a hyphen, so the first edge with a text
keeps out the later ones: those of its own pair, but also those of a pair that is written alike, as
are the pairs of `a-b` with `c` and of `a` with `b-c`. -/
namespace TablePlanner
open Lineage

namespace Lineage

def Edge.pair (e : Edge) : String × String := (e.source, e.target)

/-- Whether two edges share a text `source-middle-target`, the first with the hyphen before the
middle between its ends and the second with the one behind it. -/
def Edge.Overlaps (a b : Edge) : Prop :=
  ∃ middle, b.source = a.source ++ "-" ++ middle ∧ a.target = middle ++ "-" ++ b.target

/-- A call that adds to a lineage graph. -/
inductive Call where
  | node (id : String) (kind : Kind) (label : String) (metadata : List (String × Json.Value))
  | edge (source target label : String)
  | record (run : Run)

def Call.edges : Call → List Edge
  | node .. => []
  | edge source target label => [⟨source, target, label⟩]
  | record run => [run.applied, run.generated]

def addedBy (calls : List Call) : List Edge := calls.flatMap Call.edges

/-- Whether an edge is the first of its pair among those that calls ask for in turn, and which ones
they ask for before it. -/
structure Brought (calls : List Call) (before : List Edge) (e : Edge) : Prop where
  place : ∃ after, addedBy calls = before ++ e :: after
  first : ∀ other ∈ before, other.pair ≠ e.pair

section
variable {a b e : Edge} {calls : List Call} {before : List Edge}

theorem Edge.id_eq_of_pair_eq (h : a.pair = b.pair) : a.id = b.id := by
  obtain ⟨hsource, htarget⟩ := Prod.mk.inj h
  rw [Edge.id, Edge.id, hsource, htarget]

theorem Edge.Overlaps.pair_ne (h : a.Overlaps b) : a.pair ≠ b.pair := by
  obtain ⟨middle, hsource, -⟩ := h
  intro hpair
  have hlength : a.source.length = a.source.length + 1 + middle.length := by
    calc a.source.length = b.source.length := congrArg String.length (Prod.mk.inj hpair).1
      _ = a.source.length + "-".length + middle.length := by
        rw [hsource, String.length_append, String.length_append]
      _ = a.source.length + 1 + middle.length := rfl
  omega

theorem Edge.Overlaps.id_eq (h : a.Overlaps b) : a.id = b.id := by
  obtain ⟨middle, hsource, htarget⟩ := h
  simp only [Edge.id, hsource, htarget, String.append_assoc]

theorem Edge.pair_eq_or_overlaps {rest : List Char}
    (hsource : b.source.toList = a.source.toList ++ rest)
    (htarget : '-' :: a.target.toList = rest ++ '-' :: b.target.toList) :
    a.pair = b.pair ∨ a.Overlaps b := by
  -- The longer source goes on with nothing, or with the hyphen and a part of the other's target.
  cases rest with
  | nil =>
    rw [List.append_nil] at hsource
    rw [List.nil_append] at htarget
    exact .inl <| Prod.ext (String.toList_inj.1 hsource.symm)
      (String.toList_inj.1 (List.cons.inj htarget).2)
  | cons c middle =>
    obtain ⟨rfl, htarget⟩ := List.cons.inj htarget
    refine .inr ⟨String.ofList middle, ?_, ?_⟩
    · rw [← String.toList_inj]
      simpa using hsource
    · rw [← String.toList_inj]
      simpa using htarget

/-- Two edges have one text if they have one pair of ends or overlap, and not else. -/
theorem Edge.id_eq_iff : a.id = b.id ↔ a.pair = b.pair ∨ a.Overlaps b ∨ b.Overlaps a := by
  constructor
  · intro h
    have hlists := congrArg String.toList h
    simp only [Edge.id, String.toList_append, List.append_assoc] at hlists
    rw [List.append_cancel_left_eq] at hlists
    rcases List.append_eq_append_iff.1 hlists with
      ⟨rest, hsource, htarget⟩ | ⟨rest, hsource, htarget⟩
    · exact (Edge.pair_eq_or_overlaps hsource htarget).imp_right .inl
    · exact (Edge.pair_eq_or_overlaps hsource htarget).imp Eq.symm .inr
  · rintro (hpair | hover | hover)
    · exact Edge.id_eq_of_pair_eq hpair
    · exact hover.id_eq
    · exact hover.id_eq.symm

theorem exists_brought (h : e ∈ addedBy calls) :
    ∃ before first, Brought calls before first ∧ first.pair = e.pair := by
  obtain ⟨first, hfirst⟩ : ∃ first, (addedBy calls).find? (·.pair == e.pair) = some first := by
    rw [← Option.isSome_iff_exists, List.find?_isSome]
    exact ⟨e, h, beq_self_eq_true _⟩
  obtain ⟨hpair, before, after, hplace, hbefore⟩ := List.find?_eq_some_iff_append.1 hfirst
  have hsame : first.pair = e.pair := by simpa using hpair
  refine ⟨before, first, ⟨⟨after, hplace⟩, fun other hother => ?_⟩, hsame⟩
  simpa [hsame] using hbefore other hother

end
end Lineage

namespace LineageGraph

def call (g : LineageGraph) : Call → LineageGraph
  | .node id kind label metadata => g.addNode id kind label metadata
  | .edge source target label => g.addEdge source target label
  | .record run => g.record run

def ofCalls (calls : List Call) : LineageGraph := calls.foldl call empty

/-- The edges from one node to another. -/
def edgesOf (g : LineageGraph) (pair : String × String) : List Edge :=
  g.edges.filter (·.pair == pair)

/-- Whether the edges of a graph are those of a list that are the first with their texts. -/
structure KeyedBy (g : LineageGraph) (added : List Edge) : Prop where
  distinct : (g.edges.map (·.id)).Nodup
  mem_iff : ∀ e, e ∈ g.edges ↔ added.find? (·.id == e.id) = some e

section
variable {g : LineageGraph} {added before : List Edge} {e : Edge}
  {id source target label : String} {kind : Kind} {metadata : List (String × Json.Value)}

theorem edges_addEdge_of_new (h : ¬ g.HasEdge (Edge.id ⟨source, target, label⟩)) :
    (g.addEdge source target label).edges = g.edges ++ [⟨source, target, label⟩] := by
  unfold addEdge
  dsimp only
  rw [if_neg]
  intro hold
  obtain ⟨e, he, hid⟩ := List.any_eq_true.1 hold
  exact h ⟨e, he, by simpa using hid⟩

namespace KeyedBy

theorem eq_of_id_eq (h : g.KeyedBy added) {a b : Edge} (ha : a ∈ g.edges) (hb : b ∈ g.edges)
    (hid : a.id = b.id) : a = b :=
  List.inj_on_of_nodup_map h.distinct ha hb hid

theorem find?_eq_none (h : g.KeyedBy added) (hnew : ¬ g.HasEdge id) :
    added.find? (·.id == id) = none := by
  cases hfind : added.find? (·.id == id) with
  | none => rfl
  | some e =>
    have hid : e.id = id := by simpa using List.find?_some hfind
    exact absurd ⟨e, (h.mem_iff e).2 (hid ▸ hfind), hid⟩ hnew

theorem addNode (h : g.KeyedBy added) : (g.addNode id kind label metadata).KeyedBy added where
  distinct := by
    rw [edges_addNode]
    exact h.distinct
  mem_iff := by
    rw [edges_addNode]
    exact h.mem_iff

theorem addEdge (h : g.KeyedBy added) :
    (g.addEdge source target label).KeyedBy (added ++ [⟨source, target, label⟩]) := by
  by_cases hheld : g.HasEdge (Edge.id ⟨source, target, label⟩)
  · rw [addEdge_of_hasEdge hheld]
    obtain ⟨held, hmem, hid⟩ := hheld
    refine ⟨h.distinct, fun e => ?_⟩
    rw [h.mem_iff, List.find?_append]
    by_cases he : Edge.id ⟨source, target, label⟩ = e.id
    · rw [← he, ← hid, (h.mem_iff held).1 hmem]
      rfl
    · rw [List.find?_cons_of_neg (by simpa using he), List.find?_nil, Option.or_none]
  · refine ⟨?_, fun e => ?_⟩
    · rw [edges_addEdge_of_new hheld]
      exact nodup_map_concat h.distinct (by simpa [HasEdge] using hheld)
    · rw [edges_addEdge_of_new hheld, List.mem_append, List.mem_singleton, List.find?_append]
      by_cases he : Edge.id ⟨source, target, label⟩ = e.id
      · have hout : e ∉ g.edges := fun hmem => hheld ⟨e, hmem, he.symm⟩
        rw [← he, h.find?_eq_none hheld, Option.none_or, List.find?_cons_of_pos (by simp)]
        simp [hout, eq_comm]
      · have hne : e ≠ ⟨source, target, label⟩ := fun hsame => he (congrArg Edge.id hsame.symm)
        rw [List.find?_cons_of_neg (by simpa using he), List.find?_nil, Option.or_none, h.mem_iff]
        simp [hne]

theorem addTarget (h : g.KeyedBy added) (e : Edge) :
    (g.addTarget e kind label metadata).KeyedBy (added ++ [e]) :=
  h.addNode.addEdge

theorem call (h : g.KeyedBy added) (c : Call) : (g.call c).KeyedBy (added ++ c.edges) := by
  cases c with
  | node id kind label metadata =>
    rw [Call.edges, List.append_nil]
    exact h.addNode
  | edge source target label => exact h.addEdge
  | record run =>
    rw [Call.edges, List.append_cons]
    exact (h.addNode.addTarget run.applied).addTarget run.generated

theorem edgesOf_of_mem (h : g.KeyedBy added) (he : e ∈ g.edges) : g.edgesOf e.pair = [e] := by
  have hnodup : g.edges.Nodup := h.distinct.of_map
  have hsame : ∀ other ∈ g.edges, (other.pair == e.pair) = (other == e) := by
    intro other hother
    rw [Bool.eq_iff_iff, beq_iff_eq, beq_iff_eq]
    exact ⟨fun hpair => h.eq_of_id_eq hother he (Edge.id_eq_of_pair_eq hpair),
      congrArg Edge.pair⟩
  rw [edgesOf, List.filter_congr hsame, List.filter_beq, hnodup.count, if_pos he]
  rfl

theorem edgesOf_eq_singleton_iff (h : g.KeyedBy added) : g.edgesOf e.pair = [e] ↔ e ∈ g.edges := by
  refine ⟨fun hone => ?_, h.edgesOf_of_mem⟩
  have hmem : e ∈ g.edgesOf e.pair := hone ▸ List.mem_singleton_self e
  exact (List.mem_filter.1 hmem).1

end KeyedBy

theorem keyedBy_ofCalls (calls : List Call) : (ofCalls calls).KeyedBy (addedBy calls) := by
  induction calls using List.reverseRecOn with
  | nil => exact ⟨List.nodup_nil, fun e => by simp [ofCalls, empty, addedBy]⟩
  | append_singleton calls c ih =>
    rw [ofCalls, List.foldl_append, addedBy, List.flatMap_append, List.flatMap_singleton]
    exact ih.call c

variable {calls : List Call}

theorem find?_addedBy (h : Brought calls before e) :
    (addedBy calls).find? (·.id == e.id) = (before.find? (·.id == e.id)).or (some e) := by
  obtain ⟨after, hplace⟩ := h.place
  rw [hplace, List.find?_append, List.find?_cons_of_pos (by simp)]

/-- The first edge of a pair is kept unless one with its text was asked for before. -/
theorem mem_ofCalls_iff (h : Brought calls before e) :
    e ∈ (ofCalls calls).edges ↔ ∀ other ∈ before, other.id ≠ e.id := by
  rw [(keyedBy_ofCalls calls).mem_iff, find?_addedBy h]
  cases hfind : before.find? (·.id == e.id) with
  | none => simpa using List.find?_eq_none.1 hfind
  | some other =>
    have hother := List.mem_of_find?_eq_some hfind
    have hid : other.id = e.id := by simpa using List.find?_some hfind
    have hne : other ≠ e := fun hsame => h.first other hother (congrArg Edge.pair hsame)
    simpa [hne] using ⟨other, hother, hid⟩

theorem eq_of_mem_ofCalls (h : Brought calls before e) {other : Edge}
    (hother : other ∈ (ofCalls calls).edges) (hpair : other.pair = e.pair) : other = e := by
  have hfirst := ((keyedBy_ofCalls calls).mem_iff other).1 hother
  rw [Edge.id_eq_of_pair_eq hpair, find?_addedBy h] at hfirst
  cases hfind : before.find? (·.id == e.id) with
  | none =>
    rw [hfind, Option.none_or] at hfirst
    exact (Option.some.inj hfirst).symm
  | some found =>
    rw [hfind, Option.some_or] at hfirst
    obtain rfl := Option.some.inj hfirst
    exact absurd hpair (h.first found (List.mem_of_find?_eq_some hfind))

theorem id_ne_iff (h : Brought calls before e) {other : Edge} (hother : other ∈ before) :
    other.id ≠ e.id ↔ ¬ other.Overlaps e ∧ ¬ e.Overlaps other := by
  rw [ne_eq, Edge.id_eq_iff, ← not_or]
  simp [h.first other hother]

theorem edgesOf_of_brought (h : Brought calls before e) :
    (ofCalls calls).edgesOf e.pair = [e] ↔
      ∀ other ∈ before, ¬ other.Overlaps e ∧ ¬ e.Overlaps other := by
  rw [(keyedBy_ofCalls calls).edgesOf_eq_singleton_iff, mem_ofCalls_iff h]
  exact forall₂_congr fun other => id_ne_iff h

theorem edgesOf_eq_singleton_or_nil (h : Brought calls before e) :
    (ofCalls calls).edgesOf e.pair = [e] ∨ (ofCalls calls).edgesOf e.pair = [] := by
  by_cases he : e ∈ (ofCalls calls).edges
  · exact .inl ((keyedBy_ofCalls calls).edgesOf_of_mem he)
  · refine .inr (List.filter_eq_nil_iff.2 fun other hother hpair => he ?_)
    exact eq_of_mem_ofCalls h hother (by simpa using hpair) ▸ hother

theorem not_overlaps_of_edgesOf (hall : ∀ before e, Brought calls before e →
    (ofCalls calls).edgesOf e.pair = [e]) {a b : Edge} (ha : a ∈ addedBy calls)
    (hb : b ∈ addedBy calls) : ¬ a.Overlaps b := by
  intro hover
  have hkeyed := keyedBy_ofCalls calls
  obtain ⟨_, first, hfirst, hpair⟩ := exists_brought ha
  obtain ⟨_, second, hsecond, hpair'⟩ := exists_brought hb
  have hid : first.id = second.id := by
    rw [Edge.id_eq_of_pair_eq hpair, Edge.id_eq_of_pair_eq hpair', hover.id_eq]
  have hsame : first = second := hkeyed.eq_of_id_eq
    (hkeyed.edgesOf_eq_singleton_iff.1 (hall _ _ hfirst))
    (hkeyed.edgesOf_eq_singleton_iff.1 (hall _ _ hsecond)) hid
  exact hover.pair_ne (by rw [← hpair, ← hpair', hsame])

end

/-- After any calls every pair has one edge, the first that was asked for, exactly if no two edges
that were asked for overlap; and a pair without its edge lacks it for an overlap with an edge
before, and has no other edge. -/
theorem one_edge_per_pair_unless_overlap (calls : List Call) :
    ((∀ before e, Brought calls before e → (ofCalls calls).edgesOf e.pair = [e]) ↔
      ∀ a ∈ addedBy calls, ∀ b ∈ addedBy calls, ¬ a.Overlaps b) ∧
    (∀ before e, Brought calls before e →
      ((ofCalls calls).edgesOf e.pair = [e] ↔
        ∀ other ∈ before, ¬ other.Overlaps e ∧ ¬ e.Overlaps other) ∧
      ((ofCalls calls).edgesOf e.pair = [e] ∨ (ofCalls calls).edgesOf e.pair = [])) := by
  refine ⟨⟨fun hall a ha b hb => not_overlaps_of_edgesOf hall ha hb, fun hnone before e h => ?_⟩,
    fun before e h => ⟨edgesOf_of_brought h, edgesOf_eq_singleton_or_nil h⟩⟩
  obtain ⟨after, hplace⟩ := h.place
  rw [edgesOf_of_brought h]
  intro other hother
  have hmem : other ∈ addedBy calls ∧ e ∈ addedBy calls := by simp [hplace, hother]
  exact ⟨hnone _ hmem.1 _ hmem.2, hnone _ hmem.2 _ hmem.1⟩

def hyphenated : List Call :=
  [.edge "a-b" "c" "kept", .node "c" .output "c" [], .edge "a-b" "c" "again",
    .record ⟨"c", 1, "b-a", "Smart Transform", [], "d", 1⟩]

theorem hyphenated_one_edge_per_pair :
    Brought hyphenated
        [⟨"a-b", "c", "kept"⟩, ⟨"a-b", "c", "again"⟩, ⟨"c", "b-a", "Applied Plan"⟩]
        ⟨"b-a", "d", "Generated"⟩ ∧
      (ofCalls hyphenated).edgesOf ("b-a", "d") = [⟨"b-a", "d", "Generated"⟩] := by
  have hbrought : Brought hyphenated
      [⟨"a-b", "c", "kept"⟩, ⟨"a-b", "c", "again"⟩, ⟨"c", "b-a", "Applied Plan"⟩]
      ⟨"b-a", "d", "Generated"⟩ := ⟨⟨[], rfl⟩, by decide⟩
  obtain ⟨hkept, -⟩ := (one_edge_per_pair_unless_overlap hyphenated).2 _ _ hbrought
  have hids : ∀ other ∈ [(⟨"a-b", "c", "kept"⟩ : Edge), ⟨"a-b", "c", "again"⟩,
      ⟨"c", "b-a", "Applied Plan"⟩], other.id ≠ Edge.id ⟨"b-a", "d", "Generated"⟩ := by
    decide
  exact ⟨hbrought, hkept.2 fun other hother => (id_ne_iff hbrought hother).1 (hids other hother)⟩

/-- An edge from `a` to `b-c` is lost beside one from `a-b` to `c`. -/
theorem overlapping_edge_lost :
    Brought [.edge "a-b" "c" "first", .edge "a" "b-c" "second"] [⟨"a-b", "c", "first"⟩]
        ⟨"a", "b-c", "second"⟩ ∧
      (ofCalls [.edge "a-b" "c" "first", .edge "a" "b-c" "second"]).edgesOf ("a", "b-c") = [] :=
  ⟨⟨⟨[], rfl⟩, by decide⟩, by decide⟩

end LineageGraph
end TablePlanner
