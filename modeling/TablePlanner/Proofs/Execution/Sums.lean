import Mathlib.Algebra.BigOperators.Group.List.Basic
import TablePlanner.Proofs.Execution.Classes
import TablePlanner.Proofs.Execution.Failure
import TablePlanner.Proofs.Execution.Summary

/-! Every partial sum lies between the total of the negative amounts and that of the positive ones,
and each of these is a partial sum in some order. So a total is shown in every order exactly if both
of them fit. -/
namespace TablePlanner
open Json

namespace Totals

/-- Whether each partial sum has 64 signed bits. -/
def StaysWhole (ns : List Int) : Prop := ∀ k ≤ ns.length, Number.Signed (ns.take k).sum

instance (ns : List Int) : Decidable (StaysWhole ns) :=
  inferInstanceAs (Decidable (∀ k ≤ ns.length, _))

/-- The float sum, taken from zero. -/
def floatSum (ns : List Int) : Option Binary64 :=
  ns.foldl (fun total n => total.bind (·.add? (.ofInt n))) (some .zero)

/-- What a sum shows for integers of 64 signed bits. -/
def shownFor (ns : List Int) : Value :=
  if StaysWhole ns then .int ns.sum else .ofFloat (floatSum ns)

/-- Whether the positive integers have a total of 64 signed bits, and so have the negative ones. -/
def Bounded (ns : List Int) : Prop :=
  Number.Signed (ns.filter (0 < ·)).sum ∧ Number.Signed (ns.filter (· < 0)).sum

section
variable {ns ms : List Int} {t : Totals} {a : Int}

theorem foldlM_addCell_eq (ns : List Int) (t : Totals) :
    (ns.map Value.int).foldlM addCell t = .ok (ns.foldl (fun t n => t.add (.integer n)) t) := by
  induction ns generalizing t with
  | nil => rfl
  | cons n ns ih => exact ih (t.add (.integer n))

theorem float_foldl_add (ns : List Int) (t : Totals) :
    (ns.foldl (fun t n => t.add (.integer n)) t).float =
      ns.foldl (fun total n => total.bind (·.add? (.ofInt n))) t.float := by
  induction ns generalizing t with
  | nil => rfl
  | cons n ns ih => exact ih (t.add (.integer n))

theorem whole_foldl_add_of_none (h : t.whole = none) (ns : List Int) :
    (ns.foldl (fun t n => t.add (.integer n)) t).whole = none := by
  induction ns generalizing t with
  | nil => exact h
  | cons n ns ih =>
    apply ih
    simp [add, addWhole, h]

theorem whole_foldl_add_of_exceeds (ht : t.whole = some a)
    (h : ∃ k < ns.length, ¬ Number.Signed (a + (ns.take (k + 1)).sum)) :
    (ns.foldl (fun t n => t.add (.integer n)) t).whole = none := by
  induction ns generalizing t a with
  | nil =>
    obtain ⟨k, hk, -⟩ := h
    cases hk
  | cons n ns ih =>
    rw [List.foldl_cons]
    by_cases hfits : Number.Signed n ∧ Number.Signed (a + n)
    · have hadd : (t.add (.integer n)).whole = some (a + n) := by
        simp only [add, ht, addWhole]
        exact if_pos hfits
      -- This partial sum fits, so the one that does not is a later one.
      apply ih hadd
      obtain ⟨k, hk, hexceeds⟩ := h
      rw [List.take_succ_cons, List.sum_cons, ← Int.add_assoc] at hexceeds
      cases k with
      | zero =>
        rw [List.take_zero, List.sum_nil, Int.add_zero] at hexceeds
        exact absurd hfits.2 hexceeds
      | succ k => exact ⟨k, by simpa using hk, hexceeds⟩
    · apply whole_foldl_add_of_none
      simp only [add, ht, addWhole]
      exact if_neg hfits

theorem sum_between_of_sublist (h : ms.Sublist ns) :
    (ns.filter (· < 0)).sum ≤ ms.sum ∧ ms.sum ≤ (ns.filter (0 < ·)).sum := by
  induction h with
  | slnil => simp
  | cons n _ ih =>
    by_cases hneg : n < 0 <;> by_cases hpos : 0 < n <;> simp [hneg, hpos] <;> omega
  | cons_cons n _ ih =>
    by_cases hneg : n < 0 <;> by_cases hpos : 0 < n <;> simp [hneg, hpos] <;> omega

theorem Bounded.perm (h : Bounded ns) (hperm : ms.Perm ns) : Bounded ms := by
  unfold Bounded
  rw [(hperm.filter _).sum_eq, (hperm.filter _).sum_eq]
  exact h

theorem Bounded.staysWhole (h : Bounded ns) : StaysWhole ns := by
  intro k _
  obtain ⟨hleast, hgreatest⟩ := sum_between_of_sublist (ns.take_sublist k)
  exact ⟨h.2.1.trans hleast, hgreatest.trans h.1.2⟩

theorem shownFor_eq_int_iff : shownFor ns = .int ns.sum ↔ StaysWhole ns := by
  unfold shownFor
  split
  · next h => exact iff_of_true rfl h
  · next h =>
    refine iff_of_false ?_ h
    cases floatSum ns <;> simp [Value.ofFloat, Value.int]

theorem signed_sum_filter_of_perm {f : α → Option Int} {xs : List α}
    (h : ∀ ys : List α, ys.Perm xs → StaysWhole (ys.filterMap f)) (p : Int → Bool) :
    Number.Signed ((xs.filterMap f).filter p).sum := by
  have hahead : (xs.filter fun x => (f x).any p).filterMap f = (xs.filterMap f).filter p := by
    rw [List.filterMap_filter, List.filter_filterMap]
    apply List.filterMap_congr
    intro x _
    cases f x with
    | none => rfl
    | some n => cases hn : p n <;> simp [Option.filter, hn]
  -- Put in front of the others, the amounts of one sign make a partial sum.
  have hprefix := h _ (List.filter_append_perm (fun x => (f x).any p) xs)
    ((xs.filterMap f).filter p).length
  rw [List.filterMap_append, hahead, List.take_left] at hprefix
  exact hprefix (by simp)

theorem forall_perm_iff {f : α → Option Int} {xs : List α} :
    (∀ ys : List α, ys.Perm xs → shownFor (ys.filterMap f) = .int (xs.filterMap f).sum) ↔
      Bounded (xs.filterMap f) := by
  constructor
  · intro h
    have hwhole : ∀ ys : List α, ys.Perm xs → StaysWhole (ys.filterMap f) := by
      intro ys hperm
      rw [← shownFor_eq_int_iff, h ys hperm, (hperm.filterMap f).sum_eq]
    exact ⟨signed_sum_filter_of_perm hwhole _, signed_sum_filter_of_perm hwhole _⟩
  · intro h ys hperm
    rw [← (hperm.filterMap f).sum_eq, shownFor_eq_int_iff]
    exact (h.perm (hperm.filterMap f)).staysWhole

end
end Totals

theorem sum_eq_shownFor {cells : List Value} (h : ∀ v ∈ cells, Cell.IsAmount v) :
    Aggregate.sum.ofCells cells = .ok (Totals.shownFor (cells.filterMap Cell.integer?)) := by
  generalize hns : cells.filterMap Cell.integer? = ns
  by_cases hwhole : Totals.StaysWhole ns
  · have hsums : ∀ k, Number.Signed (ns.take k).sum := by
      intro k
      rcases Nat.le_total k ns.length with hk | hk
      · exact hwhole k hk
      · rw [List.take_of_length_le hk, ← ns.take_length]
        exact hwhole _ le_rfl
    rw [Totals.shownFor_eq_int_iff.2 hwhole, ← hns]
    exact sum_of_isAmount h (hns ▸ hsums)
  · have hexceeds : ∃ k < ns.length, ¬ Number.Signed (0 + (ns.take (k + 1)).sum) := by
      unfold Totals.StaysWhole at hwhole
      push Not at hwhole
      obtain ⟨k, hk, hexceeds⟩ := hwhole
      cases k with
      | zero =>
        rw [List.take_zero, List.sum_nil] at hexceeds
        exact absurd (by decide) hexceeds
      | succ k => exact ⟨k, hk, by rwa [Int.zero_add]⟩
    have hnone : (ns.foldl (fun t n => t.add (.integer n)) Totals.zero).whole = none :=
      Totals.whole_foldl_add_of_exceeds rfl hexceeds
    have htotals : Totals.ofCells (cells.filter (!·.isNull)) =
        .ok (ns.foldl (fun t n => t.add (.integer n)) Totals.zero) := by
      rw [present_of_isAmount h, hns]
      exact Totals.foldlM_addCell_eq ns .zero
    simp only [Aggregate.ofCells, htotals, Totals.shownFor, if_neg hwhole]
    change Except.ok (Totals.sum _) = _
    rw [Totals.sum, hnone, Totals.float_foldl_add]
    rfl

namespace Table
open Grouping (acceptedOn)

/-- Whether the cells of some rows in a column are integers of 64 signed bits, nulls aside. -/
def HasAmounts (t : Table) (field : String) (rows : List Row) : Prop :=
  ∀ row ∈ rows, Cell.IsAmount (t.cellOf row field)

/-- How a grouping shows the sums of an aggregation over groups of amounts. -/
structure ShowsSums (t : Table) (keys : List String) (aggregations : List Aggregation)
    (a : Aggregation) (u : Table) : Prop where
  shown : List.Forall₂
    (fun g shown => t.HasAmounts a.field g.rows →
      u.cellOf shown a.label = Totals.shownFor (t.amountsOf a.field g.rows))
    (Grouping.ofRows (t.knownColumns keys) t.rows) u.rows
  reordered : ∀ g ∈ Grouping.ofRows (t.knownColumns keys) t.rows, t.HasAmounts a.field g.rows →
    ((∀ rows, rows.Perm g.rows →
        Totals.shownFor (t.amountsOf a.field rows) = .int (t.amountsOf a.field g.rows).sum) ↔
      Totals.Bounded (t.amountsOf a.field g.rows))
  permuted : ∀ rows : List Row, rows.Perm t.rows →
    ∃ v notes, groupBy ⟨t.columns, rows⟩ keys aggregations = .ok (v, notes) ∧
      List.Forall₂
        (fun found shown => ∀ g ∈ Grouping.ofRows (t.knownColumns keys) t.rows,
          found.rows.Perm g.rows → t.HasAmounts a.field g.rows →
          Totals.Bounded (t.amountsOf a.field g.rows) →
          v.cellOf shown a.label = .int (t.amountsOf a.field g.rows).sum)
        (Grouping.ofRows (t.knownColumns keys) rows) v.rows
  regrouped : (∀ key ∈ t.present keys, Cell.Unmixed (t.columnOf key)) →
    ∀ rows : List Row, rows.Perm t.rows →
      ∀ g ∈ Grouping.ofRows (t.knownColumns keys) t.rows,
        ∃ found ∈ Grouping.ofRows (t.knownColumns keys) rows, found.rows.Perm g.rows

section
variable {t u : Table} {keys : List String} {aggregations : List Aggregation} {a : Aggregation}
  {notes : List Note} {rows : List Row}

theorem valueOn_of_hasAmounts (hop : a.op = .sum) (h : t.HasAmounts a.field rows) :
    a.valueOn t rows = .ok (Totals.shownFor (t.amountsOf a.field rows)) := by
  have hsum := sum_eq_shownFor (List.forall_mem_map.2 h)
  rw [List.filterMap_map] at hsum
  simp only [Aggregation.valueOn, hop, hsum]
  rfl

theorem shown_of_hasAmounts (hsome : ∃ key ∈ keys, key ∈ t.columns)
    (ha : a ∈ acceptedOn t keys aggregations) (hop : a.op = .sum)
    (h : t.groupBy keys aggregations = .ok (u, notes)) :
    List.Forall₂
      (fun g shown => t.HasAmounts a.field g.rows →
        u.cellOf shown a.label = Totals.shownFor (t.amountsOf a.field g.rows))
      (Grouping.ofRows (t.knownColumns keys) t.rows) u.rows := by
  have hpresent := present_ne_nil_iff.2 hsome
  apply (groupBy_shows hpresent h).imp
  intro g shown hshows hamounts
  have hvalue := hshows.values a ha
  rw [valueOn_of_hasAmounts hop hamounts] at hvalue
  exact (Except.ok.inj hvalue).symm

theorem groupBy_shows_sums (hsome : ∃ key ∈ keys, key ∈ t.columns)
    (ha : a ∈ acceptedOn t keys aggregations) (hop : a.op = .sum)
    (h : t.groupBy keys aggregations = .ok (u, notes)) :
    t.ShowsSums keys aggregations a u := by
  refine ⟨shown_of_hasAmounts hsome ha hop h, ?_, ?_, ?_⟩
  · exact fun g _ _ => Totals.forall_perm_iff
  · intro rows hperm
    have hno : ¬ HasOffence ⟨t.columns, rows⟩ keys aggregations := fun hoffence =>
      groupBy_ok_iff.1 ⟨_, h⟩ (hoffence.mono fun row hrow => hperm.subset hrow)
    obtain ⟨⟨v, notes⟩, hv⟩ := groupBy_ok_iff.2 hno
    have haccepted : a ∈ acceptedOn ⟨t.columns, rows⟩ keys aggregations := by
      rwa [acceptedOn, Grouping.acceptBehind_of_rows]
    have hshown := shown_of_hasAmounts (t := ⟨t.columns, rows⟩) hsome haccepted hop hv
    refine ⟨v, notes, hv, hshown.imp ?_⟩
    intro found shown htotal g _ hsame hamounts hbounded
    rw [htotal fun row hrow => hamounts row (hsame.subset hrow)]
    exact Totals.forall_perm_iff.2 hbounded _ hsame
  · exact fun hkeys rows hperm g hg => exists_group_perm hperm hkeys hg

end

def balances : Table :=
  ⟨["account", "amount"],
    [[.string "a", .int greatestInt64], [.string "b", .int 7], [.string "a", .int 1],
      [.string "b", .null], [.string "a", .int (-1)], [.string "b", .int (-9)]]⟩

def balance : Aggregation := ⟨"amount", .sum, "balance"⟩

theorem balances_shows_sums : ∃ u notes a b,
    balances.groupBy ["account"] [balance] = .ok (u, notes) ∧ u.rows = [a, b] ∧
    u.cellOf a "balance" = .ofFloat (Totals.floatSum [greatestInt64, 1, -1]) ∧
    u.cellOf b "balance" = .int (-2) ∧ balances.ShowsSums ["account"] [balance] balance u := by
  obtain ⟨u, notes, hu⟩ : ∃ u notes, balances.groupBy ["account"] [balance] = .ok (u, notes) :=
    ⟨_, _, rfl⟩
  have hsums := groupBy_shows_sums (a := balance) ⟨"account", by simp, by simp [balances]⟩
    (by decide) rfl hu
  generalize hrows : u.rows = rows
  have hshown := hrows ▸ hsums.shown
  cases hshown with
  | cons ha hrest =>
    cases hrest with
    | cons hb hrest =>
      cases hrest
      refine ⟨u, notes, _, _, hu, hrows, ?_, ?_, hsums⟩
      · have hlost : ¬ Totals.StaysWhole [greatestInt64, 1, -1] := by decide
        refine Eq.trans (ha ?_) (if_neg hlost)
        intro row hrow
        simp only [List.mem_append, List.mem_singleton] at hrow
        rcases hrow with (rfl | rfl) | rfl <;> exact .inr ⟨_, rfl, by decide⟩
      · have hwhole : Totals.StaysWhole [7, -9] := by decide
        refine Eq.trans (hb ?_) (if_pos hwhole)
        intro row hrow
        simp only [List.mem_append, List.mem_singleton] at hrow
        rcases hrow with (rfl | rfl) | rfl
        · exact .inr ⟨_, rfl, by decide⟩
        · exact .inl rfl
        · exact .inr ⟨_, rfl, by decide⟩

/-- A total that fits is lost in one order of its amounts and shown in another. -/
theorem total_lost_to_order : ∃ u v notes shown,
    groupBy ⟨["k", "v"], [[.string "a", .int greatestInt64], [.string "a", .int 1],
      [.string "a", .int (-1)]]⟩ ["k"] [⟨"v", .sum, "s"⟩] = .ok (u, notes) ∧
    groupBy ⟨["k", "v"], [[.string "a", .int greatestInt64], [.string "a", .int (-1)],
      [.string "a", .int 1]]⟩ ["k"] [⟨"v", .sum, "s"⟩] = .ok (v, notes) ∧
    Json.Number.Signed [greatestInt64, 1, -1].sum ∧
    u.rows = [shown] ∧ u.cellOf shown "s" ≠ .int [greatestInt64, 1, -1].sum ∧
    v.rows = [[.string "a", .int [greatestInt64, 1, -1].sum]] := by
  obtain ⟨u, hu⟩ : ∃ u, groupBy ⟨["k", "v"], [[.string "a", .int greatestInt64],
    [.string "a", .int 1], [.string "a", .int (-1)]]⟩ ["k"] [⟨"v", .sum, "s"⟩] = .ok (u, []) :=
    ⟨_, rfl⟩
  have hshown := shown_of_hasAmounts (a := ⟨"v", .sum, "s"⟩) ⟨"k", by simp, by simp⟩ (by decide)
    rfl hu
  generalize hrows : u.rows = rows at hshown
  cases hshown with
  | cons ha hrest =>
    cases hrest
    refine ⟨u, _, [], _, hu, rfl, by decide, hrows, ?_, rfl⟩
    rw [ha]
    · change Totals.shownFor [greatestInt64, 1, -1] ≠ _
      rw [Ne, Totals.shownFor_eq_int_iff]
      decide
    · intro row hrow
      simp only [List.mem_append, List.mem_singleton] at hrow
      rcases hrow with (rfl | rfl) | rfl <;> exact .inr ⟨_, rfl, by decide⟩

end Table
end TablePlanner
