import TablePlanner.Proofs.Execution.Summary
import TablePlanner.Proofs.Prompt.Results

namespace TablePlanner.Prompt
open Vocabulary
variable {t : Table} {prompt key : String} {r : Recipe}

theorem op_summaryAggregation (ctx : Context) (key : String) :
    (summaryAggregation ctx key).op = .count ∨ ∃ amount,
      summaryAggregation ctx key = ⟨amount, .sum, sumLabel⟩ := by
  unfold summaryAggregation
  split
  · next amount _ => exact .inr ⟨amount, rfl⟩
  · exact .inl rfl

namespace Planner

theorem groupSummaryRecipe?_of_id (hr : r ∈ (standard.propose prompt t.schema).plan.recipes)
    (hid : r.id = "group_summary_table") :
    groupSummaryRecipe? (standardContext prompt t) = some r := by
  rcases eq_default_or_detected hr with rfl | ⟨d, hd, hdetect⟩
  · exact absurd hid (by decide)
  · have hcandidates : ∀ n ∈ standardCandidates, 0 < n := by decide
    have hdetail : r.id ≠ "detail_table" := by
      rw [hid]
      decide
    rcases settled_or_groupSummary hcandidates hd hdetect hdetail with ⟨-, hother⟩ | hsummary
    · exact absurd hid hother
    · exact hsummary

theorem isSummary_of_groupSummary (hr : groupSummaryRecipe? (standardContext prompt t) = some r)
    (hkey : groupKey? (standardContext prompt t) = some key)
    (hlabel : ¬ Clashes (standardContext prompt t) key)
    (hcells : Cell.Unmixed (t.columnOf key))
    (hsums : ∀ amount, summaryAggregation (standardContext prompt t) key =
      ⟨amount, .sum, sumLabel⟩ → t.Summable key amount) :
    ∃ result trace, r.run t = .ok (result, trace) ∧
      t.IsSummary key (summaryAggregation (standardContext prompt t) key) result := by
  obtain ⟨-, key', hkey', hops⟩ := groupSummaryRecipe?_eq_some hr
  cases hkey.symm.trans hkey'
  have hctx : (standardContext prompt t).schema = t.schema := rfl
  have hsource := hasSource_summaryAggregation hctx key
  have hop : (summaryAggregation (standardContext prompt t) key).op = .count ∨
      (summaryAggregation (standardContext prompt t) key).op = .sum ∧
        t.Summable key (summaryAggregation (standardContext prompt t) key).field := by
    rcases op_summaryAggregation (standardContext prompt t) key with hcount | ⟨amount, hsum⟩
    · exact .inl hcount
    · have hsummable := hsums amount hsum
      rw [hsum]
      exact .inr ⟨rfl, hsummable⟩
  obtain ⟨keys, notes, hgroup, hshown, hcovered, hascending⟩ :=
    Table.exists_groupBy (mem_of_groupKey? hkey) hcells hsource hlabel hop
  have hresult := Table.isSummary_of_orderBy hlabel hshown hcovered hascending
  unfold Recipe.run
  rw [hops]
  exact ⟨_, _, runFrom_cons hgroup (runFrom_cons rfl rfl), hresult⟩

/-- Where a proposal has a group summary, it gives the exact totals or the numbers of rows of all
groups, largest first, unless its label is the name of its key. -/
theorem group_summary_exact (hr : r ∈ (standard.propose prompt t.schema).plan.recipes)
    (hid : r.id = "group_summary_table")
    (hkey : groupKey? (standardContext prompt t) = some key)
    (hlabel : ¬ Clashes (standardContext prompt t) key)
    (hcells : Cell.Unmixed (t.columnOf key))
    (hsums : ∀ amount, summaryAggregation (standardContext prompt t) key =
      ⟨amount, .sum, sumLabel⟩ → t.Summable key amount) :
    ∃ o result, (standard.propose prompt t.schema).plan.run t = .ok o ∧
      o.get? "group_summary_table" = some result ∧
      t.IsSummary key (summaryAggregation (standardContext prompt t) key) result := by
  have hsummary := groupSummaryRecipe?_of_id hr hid
  obtain ⟨result, trace, hrun, hresult⟩ :=
    isSummary_of_groupSummary hsummary hkey hlabel hcells hsums
  have hruns : ∀ s ∈ (standard.propose prompt t.schema).plan.recipes,
      groupSummaryRecipe? (standardContext prompt t) = some s →
        ∃ result trace, s.run t = .ok (result, trace) := by
    intro s _ hs
    cases hsummary.symm.trans hs
    exact ⟨result, trace, hrun⟩
  obtain ⟨o, ho, hfound⟩ := exists_run_of_propose hruns
  have hgot := hfound r hr result trace hrun
  rw [hid] at hgot
  exact ⟨o, result, ho, hgot, hresult⟩

def branches : Table where
  columns := ["지역", "Amount"]
  rows :=
    [[.string "b", .int 3], [.string "a", .int 1], [.null, .int 9], [.string "a", .int 2],
     [.string "c", .null]]

theorem branches_summable : branches.Summable "지역" "Amount" where
  cells := by
    intro v hv
    simp [branches, Table.columnOf, Table.cellOf, Table.cell] at hv
    rcases hv with rfl | rfl | rfl | rfl | rfl
    · exact .inr ⟨3, rfl, by decide⟩
    · exact .inr ⟨1, rfl, by decide⟩
    · exact .inr ⟨9, rfl, by decide⟩
    · exact .inr ⟨2, rfl, by decide⟩
    · exact .inl rfl
  sums := by
    have hprefixes : ∀ ns ∈ [[3], [1, 2], []], ∀ k, Json.Number.Signed (List.take k ns).sum := by
      have hshort : ∀ ns ∈ [[3], [1, 2], []], ∀ k < 3, Json.Number.Signed (List.take k ns).sum := by
        decide
      intro ns hns k
      rcases Nat.lt_or_ge k 3 with hk | hk
      · exact hshort ns hns k hk
      · have hlength : ∀ ns ∈ [[3], [1, 2], ([] : List Int)], ns.length ≤ 2 := by decide
        rw [List.take_of_length_le ((hlength ns hns).trans (by omega)),
          ← List.take_of_length_le (hlength ns hns)]
        exact hshort ns hns 2 (by decide)
    intro key hkey hpresent
    simp [branches, Table.columnOf, Table.cellOf, Table.cell] at hkey
    rcases hkey with rfl | rfl | rfl | rfl | rfl
    · exact hprefixes [3] (by simp)
    · exact hprefixes [1, 2] (by simp)
    · cases hpresent
    · exact hprefixes [1, 2] (by simp)
    · exact hprefixes [] (by simp)

theorem branches_group_summary :
    ∃ o result, (standard.propose "지역별 합계 상세" branches.schema).plan.run branches = .ok o ∧
      o.get? "group_summary_table" = some result ∧
      result.rows = [[.string "a", .int 3], [.string "b", .int 3], [.string "c", .int 0]] ∧
      branches.IsSummary "지역" ⟨"Amount", .sum, sumLabel⟩ result := by
  have hrecipes : ∃ r ∈ (standard.propose "지역별 합계 상세" branches.schema).plan.recipes,
      r.id = "group_summary_table" := ⟨_, List.mem_cons_self, rfl⟩
  obtain ⟨r, hr, hid⟩ := hrecipes
  have hcells : Cell.Unmixed (branches.columnOf "지역") := by
    intro x n hx
    simp [Table.columnOf, Table.cellOf, Table.cell, branches] at hx
  have hsums : ∀ amount, summaryAggregation (standardContext "지역별 합계 상세" branches) "지역" =
      ⟨amount, .sum, sumLabel⟩ → branches.Summable "지역" amount := by
    intro amount hamount
    cases hamount
    exact branches_summable
  obtain ⟨o, result, hrun, hfound, hsummary⟩ :=
    group_summary_exact hr hid rfl (by decide) hcells hsums
  refine ⟨o, result, hrun, hfound, ?_, hsummary⟩
  cases hrun
  cases hfound
  rfl

end Planner
end TablePlanner.Prompt
