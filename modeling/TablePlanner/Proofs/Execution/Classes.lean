import Mathlib.Algebra.Ring.Nat
import Mathlib.Data.List.Lex
import TablePlanner.Proofs.Cell.Extremes
import TablePlanner.Proofs.Execution.Accepted
import TablePlanner.Proofs.Execution.Groups

/-! Where no key column has a float beside an integer beyond `2 ^ 53`, grouping finds the classes of
the rows that tie in all keys: in ascending order, each with all of its rows in their order. -/
namespace TablePlanner
open Json

namespace Grouping

def Places := List Cell.Place

instance : LinearOrder Places := inferInstanceAs (LinearOrder (List Cell.Place))

def places (key : Key) : Places := key.map Cell.place

theorem places_cons_lt_iff {a b : Value} {j k : Key} : places (a :: j) < places (b :: k) ↔
    Cell.place a < Cell.place b ∨ Cell.place a = Cell.place b ∧ places j < places k :=
  List.cons_lt_cons_iff

theorem compare_places_cons (a b : Value) (j k : Key) :
    compare (places (a :: j)) (places (b :: k)) =
      (compare (Cell.place a) (Cell.place b)).then (compare (places j) (places k)) := by
  rcases lt_trichotomy (Cell.place a) (Cell.place b) with hab | hab | hab
  · rw [compare_lt_iff_lt.2 hab, compare_lt_iff_lt.2 (places_cons_lt_iff.2 (.inl hab))]
    rfl
  · rw [compare_eq_iff_eq.2 hab, Ordering.eq_then]
    rcases lt_trichotomy (places j) (places k) with hjk | hjk | hjk
    · rw [compare_lt_iff_lt.2 hjk, compare_lt_iff_lt.2 (places_cons_lt_iff.2 (.inr ⟨hab, hjk⟩))]
    · have hcons : places (a :: j) = places (b :: k) := List.cons_eq_cons.2 ⟨hab, hjk⟩
      rw [compare_eq_iff_eq.2 hjk, compare_eq_iff_eq.2 hcons]
    · rw [compare_gt_iff_gt.2 hjk,
        compare_gt_iff_gt.2 (places_cons_lt_iff.2 (.inr ⟨hab.symm, hjk⟩))]
  · rw [compare_gt_iff_gt.2 hab, compare_gt_iff_gt.2 (places_cons_lt_iff.2 (.inl hab))]
    rfl

section
variable {names : List String} {f g : String → Value}

theorem keyOrder_map_eq_iff :
    keyOrder (names.map f) (names.map g) = .eq ↔
      ∀ name ∈ names, Cell.order (f name) (g name) = .eq := by
  induction names with
  | nil => simp [keyOrder]
  | cons name names ih =>
    rw [List.forall_mem_cons, ← ih, List.map_cons, List.map_cons, keyOrder, Ordering.then_eq_eq]

theorem keyOrder_map_lt_iff :
    keyOrder (names.map f) (names.map g) = .lt ↔ ∃ before name after,
      names = before ++ name :: after ∧ (∀ n ∈ before, Cell.order (f n) (g n) = .eq) ∧
        Cell.order (f name) (g name) = .lt := by
  induction names with
  | nil => simp [keyOrder]
  | cons name names ih =>
    rw [List.map_cons, List.map_cons, keyOrder, Ordering.then_eq_lt, ih]
    constructor
    · rintro (hlt | ⟨heq, before, other, after, rfl, hbefore, hlt⟩)
      · exact ⟨[], name, names, rfl, by simp, hlt⟩
      · exact ⟨name :: before, other, after, rfl, List.forall_mem_cons.2 ⟨heq, hbefore⟩, hlt⟩
    · rintro ⟨before, other, after, hsplit, hbefore, hlt⟩
      cases before with
      | nil =>
        cases hsplit
        exact .inl hlt
      | cons first before =>
        cases hsplit
        rw [List.forall_mem_cons] at hbefore
        exact .inr ⟨hbefore.1, before, other, after, rfl, hbefore.2, hlt⟩

theorem keyOrder_map_eq_compare
    (h : ∀ name ∈ names, Cell.Comparable (f name) (g name)) :
    keyOrder (names.map f) (names.map g) =
      compare (places (names.map f)) (places (names.map g)) := by
  induction names with
  | nil => exact (compare_eq_iff_eq.2 rfl).symm
  | cons name names ih =>
    rw [List.forall_mem_cons] at h
    rw [List.map_cons, List.map_cons, keyOrder, compare_places_cons, Cell.order_eq_compare h.1,
      ih h.2]

end

end Grouping

namespace Table
open Grouping (Group Collected keyOrder places acceptedOn)

theorem pickCells_knownColumns (t : Table) (keys : List String) (row : Row) :
    pickCells (t.knownColumns keys) row = (t.present keys).map (t.cellOf row) := by
  rw [← pickColumns_knownColumns, pickColumns, List.map_map]
  apply List.map_congr_left
  intro i hi
  obtain ⟨name, -, hname⟩ := mem_knownColumns.1 hi
  rw [Function.comp, getD_of_columnIndex? hname, cellOf_of_columnIndex? hname]

/-- Whether two rows tie in every key that is a column. -/
def Ties (t : Table) (keys : List String) (r s : Row) : Prop :=
  ∀ key ∈ t.present keys, Cell.order (t.cellOf r key) (t.cellOf s key) = .eq

instance (t : Table) (keys : List String) (r s : Row) : Decidable (t.Ties keys r s) :=
  inferInstanceAs (Decidable (∀ key ∈ t.present keys, _))

/-- Whether a row is less than another at the first key in which they do not tie. -/
def Precedes (t : Table) (keys : List String) (r s : Row) : Prop :=
  ∃ before key after, t.present keys = before ++ key :: after ∧
    (∀ k ∈ before, Cell.order (t.cellOf r k) (t.cellOf s k) = .eq) ∧
    Cell.order (t.cellOf r key) (t.cellOf s key) = .lt

/-- The rows that tie with a row in the keys, in the order of the table. -/
def classOf (t : Table) (keys : List String) (row : Row) : List Row :=
  t.rows.filter (t.Ties keys row ·)

section
variable {t : Table} {keys : List String} {r s : Row}

theorem ties_iff_keyOrder : t.Ties keys r s ↔
    keyOrder (pickCells (t.knownColumns keys) r) (pickCells (t.knownColumns keys) s) = .eq := by
  rw [pickCells_knownColumns, pickCells_knownColumns, Grouping.keyOrder_map_eq_iff]
  rfl

theorem precedes_iff_keyOrder : t.Precedes keys r s ↔
    keyOrder (pickCells (t.knownColumns keys) r) (pickCells (t.knownColumns keys) s) = .lt := by
  rw [pickCells_knownColumns, pickCells_knownColumns, Grouping.keyOrder_map_lt_iff]
  rfl

theorem Ties.hasNullAmong_eq (h : t.Ties keys r s) :
    t.hasNullAmong keys r = t.hasNullAmong keys s := by
  unfold hasNullAmong
  rw [Bool.eq_iff_iff, List.any_eq_true, List.any_eq_true]
  constructor
  · rintro ⟨key, hkey, hnull⟩
    exact ⟨key, hkey, Cell.isNull_eq_of_order_eq (h key hkey) ▸ hnull⟩
  · rintro ⟨key, hkey, hnull⟩
    exact ⟨key, hkey, (Cell.isNull_eq_of_order_eq (h key hkey)).symm ▸ hnull⟩

section
variable (hkeys : ∀ key ∈ t.present keys, Cell.Unmixed (t.columnOf key))
include hkeys

theorem keyOrder_eq_compare_places (hr : r ∈ t.rows) (hs : s ∈ t.rows) :
    keyOrder (pickCells (t.knownColumns keys) r) (pickCells (t.knownColumns keys) s) =
      compare (places (pickCells (t.knownColumns keys) r))
        (places (pickCells (t.knownColumns keys) s)) := by
  rw [pickCells_knownColumns, pickCells_knownColumns]
  apply Grouping.keyOrder_map_eq_compare
  intro key hkey
  exact (hkeys key hkey).comparable (cellOf_mem hr key) (cellOf_mem hs key)

theorem ties_iff_places (hr : r ∈ t.rows) (hs : s ∈ t.rows) :
    t.Ties keys r s ↔ places (pickCells (t.knownColumns keys) r) =
      places (pickCells (t.knownColumns keys) s) := by
  rw [ties_iff_keyOrder, keyOrder_eq_compare_places hkeys hr hs, compare_eq_iff_eq]

theorem precedes_iff_places (hr : r ∈ t.rows) (hs : s ∈ t.rows) :
    t.Precedes keys r s ↔ places (pickCells (t.knownColumns keys) r) <
      places (pickCells (t.knownColumns keys) s) := by
  rw [precedes_iff_keyOrder, keyOrder_eq_compare_places hkeys hr hs, compare_lt_iff_lt]

theorem ties_left_iff {x : Row} (hr : r ∈ t.rows) (hs : s ∈ t.rows) (hx : x ∈ t.rows)
    (h : t.Ties keys r s) : t.Ties keys r x ↔ t.Ties keys s x := by
  rw [ties_iff_places hkeys hr hx, ties_iff_places hkeys hs hx,
    (ties_iff_places hkeys hr hs).1 h]

theorem collected_of_unmixed_keys :
    Collected places (t.knownColumns keys) (t.rows.filter (!t.hasNullAmong keys ·))
      (Grouping.ofRows (t.knownColumns keys) t.rows) := by
  have hnull : Grouping.hasNullKey (t.knownColumns keys) = t.hasNullAmong keys :=
    funext (t.hasNullKey_eq keys)
  rw [← hnull]
  exact Grouping.collected_ofRows fun r hr s hs _ _ => keyOrder_eq_compare_places hkeys hr hs

end

theorem exists_first_of_group {g : Group} (hg : g ∈ Grouping.ofRows (t.knownColumns keys) t.rows) :
    ∃ first rest, g.rows = first :: rest ∧ g.key = pickCells (t.knownColumns keys) first ∧
      first ∈ t.rows ∧ t.hasNullAmong keys first = false := by
  obtain ⟨⟨first, rest, hrows, hkey⟩, hmem⟩ := Grouping.drawnFrom_ofRows hg
  have hfirst : first ∈ g.rows := by simp [hrows]
  have hkept := (Grouping.perm_ofRows (t.knownColumns keys) t.rows).subset
    (List.mem_flatMap.2 ⟨g, hg, hfirst⟩)
  have hpresent := (List.mem_filter.1 hkept).2
  rw [hasNullKey_eq, Bool.not_eq_true'] at hpresent
  exact ⟨first, rest, hrows, hkey, hmem first hfirst, hpresent⟩

/-- Whether a row of a grouping shows a group, column by column: the key cells of its first row, and
for each accepted aggregation what it gives for its rows. -/
structure Shows (t : Table) (keys : List String) (aggregations : List Aggregation) (u : Table)
    (g : Group) (shown : Row) : Prop where
  width : shown.length = u.columns.length
  cells : ∃ first, g.rows.head? = some first ∧
    ∀ key ∈ t.present keys, u.cellOf shown key = t.cellOf first key
  values : ∀ a ∈ acceptedOn t keys aggregations,
    a.valueOn t g.rows = .ok (u.cellOf shown a.label)

/-- A grouping shows its groups, in their order. -/
theorem groupBy_shows {u : Table} {aggregations : List Aggregation} {notes : List Note}
    (hpresent : t.present keys ≠ []) (h : t.groupBy keys aggregations = .ok (u, notes)) :
    List.Forall₂ (t.Shows keys aggregations u) (Grouping.ofRows (t.knownColumns keys) t.rows)
      u.rows := by
  rw [groupBy_of_present hpresent] at h
  split at h
  · next rows hrows =>
    cases h
    have hshown := (List.forall₂_and_left _ _).2 ⟨fun g hg => hg, forall₂_of_mapM_ok hrows⟩
    apply hshown.imp
    rintro g shown ⟨hg, hrow⟩
    obtain ⟨values, hvalues, hrow⟩ := exists_of_bind_ok hrow
    obtain ⟨first, rest, hfirst, hkey, -, -⟩ := exists_first_of_group hg
    rw [pickCells_knownColumns] at hkey
    cases hrow
    have hvalues := forall₂_of_mapM_ok hvalues
    rw [hkey]
    refine ⟨?_, ⟨first, by rw [hfirst, List.head?_cons], ?_⟩, ?_⟩
    · simp [hvalues.length_eq]
    · exact fun key hkey => cellOf_shown_key rfl hkey
    · intro a ha
      exact cellOf_shown_label (R := fun a v => a.valueOn t g.rows = .ok v) rfl
        (t.nodup_shownColumns keys aggregations) hvalues ha
  · cases h

theorem rows_eq_classOf (hkeys : ∀ key ∈ t.present keys, Cell.Unmixed (t.columnOf key))
    {g : Group} (hg : g ∈ Grouping.ofRows (t.knownColumns keys) t.rows) {first : Row}
    (hkey : g.key = pickCells (t.knownColumns keys) first) (hfirst : first ∈ t.rows)
    (hpresent : t.hasNullAmong keys first = false) : g.rows = t.classOf keys first := by
  rw [(collected_of_unmixed_keys hkeys).complete g hg, List.filter_filter, classOf, hkey]
  apply List.filter_congr
  intro row hrow
  rw [Bool.eq_iff_iff, Bool.and_eq_true, decide_eq_true_iff, decide_eq_true_iff,
    ties_iff_places hkeys hfirst hrow, Bool.not_eq_true']
  constructor
  · rintro ⟨hsame, -⟩
    exact hsame.symm
  · intro hsame
    have hties : t.Ties keys first row := (ties_iff_places hkeys hfirst hrow).2 hsame
    exact ⟨hsame.symm, hties.hasNullAmong_eq ▸ hpresent⟩

theorem group_eq_of_first (hkeys : ∀ key ∈ t.present keys, Cell.Unmixed (t.columnOf key))
    {g : Group} (hg : g ∈ Grouping.ofRows (t.knownColumns keys) t.rows) :
    ∃ first, g.rows.headD [] = first ∧
      g = ⟨(t.present keys).map (t.cellOf first), t.classOf keys first⟩ ∧
      first ∈ t.rows ∧ t.hasNullAmong keys first = false ∧
      (t.classOf keys first).head? = some first := by
  obtain ⟨first, rest, hrows, hkey, hmem, hpresent⟩ := exists_first_of_group hg
  have hclass := rows_eq_classOf hkeys hg hkey hmem hpresent
  refine ⟨first, by rw [hrows, List.headD_cons], ?_, hmem, hpresent, ?_⟩
  · rw [← hclass, ← pickCells_knownColumns, ← hkey]
  · rw [← hclass, hrows, List.head?_cons]

/-- Rows that stand for the classes of a table by some keys: the earliest row of each class, the
classes in ascending order. -/
structure Classes (t : Table) (keys : List String) (firsts : List Row) : Prop where
  ascending : firsts.Pairwise (t.Precedes keys)
  earliest : ∀ first ∈ firsts, first ∈ t.rows ∧ t.hasNullAmong keys first = false ∧
    (t.classOf keys first).head? = some first
  covered : ∀ row ∈ t.rows, t.hasNullAmong keys row = false →
    ∃ first ∈ firsts, t.Ties keys first row

/-- Grouping finds the classes. -/
theorem exists_classes (hkeys : ∀ key ∈ t.present keys, Cell.Unmixed (t.columnOf key)) :
    ∃ firsts, t.Classes keys firsts ∧ Grouping.ofRows (t.knownColumns keys) t.rows =
      firsts.map fun first => ⟨(t.present keys).map (t.cellOf first), t.classOf keys first⟩ := by
  have hcollected := collected_of_unmixed_keys hkeys
  -- A group is given back by its first row, so the first rows stand for the groups.
  refine ⟨(Grouping.ofRows (t.knownColumns keys) t.rows).map (·.rows.headD []), ⟨?_, ?_, ?_⟩, ?_⟩
  · rw [List.pairwise_map]
    apply hcollected.ascending.imp_of_mem
    intro g g' hg hg' hlt
    obtain ⟨first, hhead, hshape, hmem, -, -⟩ := group_eq_of_first hkeys hg
    obtain ⟨first', hhead', hshape', hmem', -, -⟩ := group_eq_of_first hkeys hg'
    rw [hhead, hhead', precedes_iff_places hkeys hmem hmem', pickCells_knownColumns,
      pickCells_knownColumns]
    rwa [hshape, hshape'] at hlt
  · intro first hfirst
    obtain ⟨g, hg, rfl⟩ := List.mem_map.1 hfirst
    obtain ⟨first, hhead, -, hmem, hpresent, hearliest⟩ := group_eq_of_first hkeys hg
    rw [hhead]
    exact ⟨hmem, hpresent, hearliest⟩
  · intro row hrow hpresent
    have hkept : row ∈ t.rows.filter (!t.hasNullAmong keys ·) := by
      rw [List.mem_filter, hpresent]
      exact ⟨hrow, rfl⟩
    obtain ⟨g, hg, hlevel⟩ := hcollected.covered row hkept
    obtain ⟨first, hhead, hshape, hmem, -, -⟩ := group_eq_of_first hkeys hg
    refine ⟨_, List.mem_map_of_mem hg, ?_⟩
    rw [hhead, ties_iff_places hkeys hmem hrow, ← hlevel, pickCells_knownColumns, hshape]
  · rw [List.map_map]
    conv_lhs => rw [← List.map_id (Grouping.ofRows (t.knownColumns keys) t.rows)]
    apply List.map_congr_left
    intro g hg
    obtain ⟨first, hhead, hshape, -⟩ := group_eq_of_first hkeys hg
    rw [Function.comp, hhead, ← hshape]
    rfl

theorem sum_length_classOf {firsts : List Row}
    (h : Grouping.ofRows (t.knownColumns keys) t.rows =
      firsts.map fun first => ⟨(t.present keys).map (t.cellOf first), t.classOf keys first⟩) :
    (firsts.map fun first => (t.classOf keys first).length).sum =
      t.rows.countP (!t.hasNullAmong keys ·) := by
  have hperm := (Grouping.perm_ofRows (t.knownColumns keys) t.rows).length_eq
  have hnull : Grouping.hasNullKey (t.knownColumns keys) = t.hasNullAmong keys :=
    funext (t.hasNullKey_eq keys)
  rw [h, hnull, List.length_flatMap, List.map_map] at hperm
  rw [List.countP_eq_length_filter, ← hperm]
  rfl

theorem classOf_eq_of_ties (hkeys : ∀ key ∈ t.present keys, Cell.Unmixed (t.columnOf key))
    (hr : r ∈ t.rows) (hs : s ∈ t.rows) (h : t.Ties keys r s) :
    t.classOf keys r = t.classOf keys s := by
  apply List.filter_congr
  intro x hx
  rw [decide_eq_decide]
  exact ties_left_iff hkeys hr hs hx h

section
variable {rows : List Row} (hperm : rows.Perm t.rows)
include hperm

theorem unmixed_of_perm (hkeys : ∀ key ∈ t.present keys, Cell.Unmixed (t.columnOf key)) :
    ∀ key ∈ t.present keys, Cell.Unmixed (columnOf ⟨t.columns, rows⟩ key) :=
  fun key hkey => (hkeys key hkey).mono fun _ hv => (hperm.map _).subset hv

theorem classOf_perm (keys : List String) (r : Row) :
    (classOf ⟨t.columns, rows⟩ keys r).Perm (t.classOf keys r) :=
  hperm.filter _

theorem exists_group_perm (hkeys : ∀ key ∈ t.present keys, Cell.Unmixed (t.columnOf key))
    {g : Group} (hg : g ∈ Grouping.ofRows (t.knownColumns keys) t.rows) :
    ∃ found ∈ Grouping.ofRows (t.knownColumns keys) rows, found.rows.Perm g.rows := by
  obtain ⟨first, -, rfl, hfirst, hnull, -⟩ := group_eq_of_first hkeys hg
  have hpermuted := unmixed_of_perm hperm hkeys
  obtain ⟨firsts, hclasses, hgroups⟩ := exists_classes (t := ⟨t.columns, rows⟩) hpermuted
  have hmem : first ∈ rows := hperm.symm.subset hfirst
  obtain ⟨other, hother, hties⟩ := hclasses.covered first hmem hnull
  have hsame : classOf ⟨t.columns, rows⟩ keys other = classOf ⟨t.columns, rows⟩ keys first :=
    classOf_eq_of_ties hpermuted (hclasses.earliest other hother).1 hmem hties
  have hfound : ⟨(t.present keys).map (t.cellOf other), classOf ⟨t.columns, rows⟩ keys first⟩ ∈
      Grouping.ofRows (t.knownColumns keys) rows := by
    rw [← hsame]
    exact hgroups ▸ List.mem_map_of_mem hother
  exact ⟨_, hfound, classOf_perm hperm keys first⟩

end

end
end Table
end TablePlanner
