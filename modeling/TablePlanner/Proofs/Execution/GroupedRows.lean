import TablePlanner.Proofs.Cell.Extremes
import TablePlanner.Proofs.Execution.Classes

namespace TablePlanner
open Json

namespace Table
open Grouping (acceptedOn)

def presentCells (t : Table) (field : String) (rows : List Row) : List Value :=
  (rows.map (t.cellOf · field)).filter (!·.isNull)

/-- What counts, minima and maxima show for the rows of a class. -/
structure Summarizes (t : Table) (rows : List Row) (a : Aggregation) (v : Value) : Prop where
  count : a.op = .count → v = .nat rows.length
  min : a.op = .min → t.presentCells a.field rows = [] ∧ v = .null ∨
    Cell.IsFirstLeast (t.presentCells a.field rows) v
  max : a.op = .max → t.presentCells a.field rows = [] ∧ v = .null ∨
    Cell.IsLastGreatest (t.presentCells a.field rows) v

/-- Whether a row of a grouping shows the class of a row, column by column: the key cells of that
row, and a value for each accepted aggregation. -/
structure ShowsClass (t : Table) (keys : List String) (aggregations : List Aggregation) (u : Table)
    (first shown : Row) : Prop where
  width : shown.length = u.columns.length
  cells : ∀ key ∈ t.present keys, u.cellOf shown key = t.cellOf first key
  values : ∀ a ∈ acceptedOn t keys aggregations,
    t.Summarizes (t.classOf keys first) a (u.cellOf shown a.label)

/-- Whether a table with some notes is a grouping of another. -/
structure IsGrouped (t : Table) (keys : List String) (aggregations : List Aggregation) (u : Table)
    (notes : List Note) : Prop where
  columns : u.columns = t.present keys ++ (acceptedOn t keys aggregations).map (·.label)
  rows : ∃ firsts, t.Classes keys firsts ∧
    List.Forall₂ (t.ShowsClass keys aggregations u) firsts u.rows ∧
    (firsts.map fun first => (t.classOf keys first).length).sum =
      t.rows.countP (!t.hasNullAmong keys ·)
  nulls : ∀ n, .nullGroupKeys n ∈ notes ↔ 0 < n ∧ n = t.rows.countP (t.hasNullAmong keys)

variable {t u : Table} {keys : List String} {aggregations : List Aggregation} {notes : List Note}

theorem summarizes_of_valueOn {a : Aggregation} {rows : List Row} {v : Value}
    (hrows : ∀ row ∈ rows, row ∈ t.rows)
    (hcells : a.op = .min ∨ a.op = .max → Cell.Unmixed (t.columnOf a.field))
    (h : a.valueOn t rows = .ok v) : t.Summarizes rows a v := by
  have hunmixed : a.op = .min ∨ a.op = .max → Cell.Unmixed (t.presentCells a.field rows) := by
    intro hop
    apply (hcells hop).mono
    intro v hv
    obtain ⟨row, hrow, rfl⟩ := List.mem_map.1 (List.mem_filter.1 hv).1
    exact cellOf_mem (hrows row hrow) a.field
  unfold Aggregation.valueOn at h
  constructor
  · intro hop
    rw [if_pos hop] at h
    exact (Except.ok.inj h).symm
  · intro hop
    simp only [hop] at h
    rw [← Except.ok.inj h]
    exact (hunmixed (.inl hop)).nil_or_isFirstLeast
  · intro hop
    simp only [hop] at h
    rw [← Except.ok.inj h]
    exact (hunmixed (.inr hop)).nil_or_isLastGreatest

theorem nullGroupKeys_mem_notesOn_iff (hsome : ∃ key ∈ keys, key ∈ t.columns) (n : Nat) :
    .nullGroupKeys n ∈ (Operation.groupBy keys aggregations).notesOn t ↔
      0 < n ∧ n = t.rows.countP (t.hasNullAmong keys) := by
  have hkeys : ¬ ∀ key ∈ keys, key ∉ t.columns := by simpa using hsome
  have hmissing : .nullGroupKeys n ∉
      if ∀ key ∈ keys, key ∈ t.columns then [] else [Note.missingGroupKeys (t.absent keys)] := by
    split <;> simp
  have haggregations : .nullGroupKeys n ∉ Grouping.notesOn t keys aggregations := by
    intro hmem
    rcases Grouping.dropped_or_duplicate hmem with ⟨_, _, hnote⟩ | ⟨_, hnote⟩
    · cases hnote
    · cases hnote
  simp only [Operation.notesOn, if_neg hkeys, List.mem_append, hmissing, haggregations, false_or]
  constructor
  · intro hmem
    split at hmem
    · next hpos =>
      cases List.mem_singleton.1 hmem
      exact ⟨hpos, rfl⟩
    · cases hmem
  · rintro ⟨hpos, rfl⟩
    rw [if_pos hpos]
    exact List.mem_singleton_self _

theorem groupBy_shows_classes (hsome : ∃ key ∈ keys, key ∈ t.columns)
    (hkeys : ∀ key ∈ keys, key ∈ t.columns → Cell.Unmixed (t.columnOf key))
    (hfields : ∀ a ∈ acceptedOn t keys aggregations, a.op = .min ∨ a.op = .max →
      Cell.Unmixed (t.columnOf a.field))
    (h : t.groupBy keys aggregations = .ok (u, notes)) :
    t.IsGrouped keys aggregations u notes := by
  have hpresent := present_ne_nil_iff.2 hsome
  have hunmixed : ∀ key ∈ t.present keys, Cell.Unmixed (t.columnOf key) := by
    intro key hkey
    rw [mem_present] at hkey
    exact hkeys key hkey.1 hkey.2
  have hcolumns := groupBy_columns hpresent h
  have hnotes := (groupBy_eq h).1
  have hshows := groupBy_shows hpresent h
  obtain ⟨firsts, hclasses, hgroups⟩ := exists_classes hunmixed
  rw [hgroups, List.forall₂_map_left_iff] at hshows
  have hfirsts := (List.forall₂_and_left _ _).2 ⟨hclasses.earliest, hshows⟩
  refine ⟨hcolumns, ⟨firsts, hclasses, hfirsts.imp ?_, sum_length_classOf hgroups⟩, ?_⟩
  · rintro first shown ⟨⟨-, -, hearliest⟩, hwidth, ⟨head, hhead, hcells⟩, hvalues⟩
    cases hhead.symm.trans hearliest
    refine ⟨hwidth, hcells, ?_⟩
    intro a ha
    apply summarizes_of_valueOn _ (hfields a ha) (hvalues a ha)
    exact fun row hrow => (List.mem_filter.1 hrow).1
  · rw [hnotes]
    exact nullGroupKeys_mem_notesOn_iff hsome

def visits : Table :=
  ⟨["shop", "day", "paid"],
    [[.string "b", .int 2, .int 5], [.string "a", .int 9, .null], [.string "b", .int 2, .int 3],
      [.string "a", .null, .int 7], [.string "b", .int 1, .int 4], [.string "b", .int 2, .null]]⟩

def visitAggregations : List Aggregation :=
  [⟨"paid", .min, "least"⟩, ⟨"anything", .count, "visits"⟩, ⟨"tax", .sum, "tax"⟩,
    ⟨"paid", .max, "shop"⟩, ⟨"paid", .max, "most"⟩]

theorem visits_shows_classes : ∃ u notes,
    visits.groupBy ["shop", "day", "shop", "week"] visitAggregations = .ok (u, notes) ∧
      u.columns = ["shop", "day", "least", "visits", "most"] ∧
      u.rows = [[.string "a", .int 9, .null, .int 1, .null],
        [.string "b", .int 1, .int 4, .int 1, .int 4],
        [.string "b", .int 2, .int 3, .int 3, .int 5]] ∧
      notes = [.missingGroupKeys ["week"], .droppedAggregation "tax" "tax", .duplicateLabel "shop",
        .nullGroupKeys 1] ∧
      visits.IsGrouped ["shop", "day", "shop", "week"] visitAggregations u notes := by
  have hwhole : ∀ field ∈ visits.columns, Cell.Unmixed (visits.columnOf field) := by
    intro field hfield x n hx
    simp only [visits, List.mem_cons, List.not_mem_nil, or_false] at hfield
    rcases hfield with rfl | rfl | rfl <;> simp [columnOf, cellOf, cell, visits, Value.int] at hx
  have hread : ∀ a ∈ acceptedOn visits ["shop", "day", "shop", "week"] visitAggregations,
      a.op = .min ∨ a.op = .max → a.field ∈ visits.columns := by decide
  refine ⟨_, _, rfl, rfl, rfl, rfl, ?_⟩
  exact groupBy_shows_classes ⟨"shop", by simp, by simp [visits]⟩
    (fun key _ hkey => hwhole key hkey) (fun a ha hop => hwhole a.field (hread a ha hop)) rfl

end Table
end TablePlanner
