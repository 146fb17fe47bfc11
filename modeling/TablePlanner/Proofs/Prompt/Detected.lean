import TablePlanner.Proofs.Plan.RoundTrip
import TablePlanner.Proofs.Prompt.Chain

namespace TablePlanner.Prompt
open Vocabulary

theorem topAmountRecipe?_eq_some {ctx : Context} {r : Recipe} (h : topAmountRecipe? ctx = some r) :
    r.id = "top_amount_table" ∧ ∃ amount limits,
      ctx.schema.findColumn? amountColumn = some amount ∧
      r.operations = [selectAll ctx, .orderBy amount .descending] ++ limits ∧
        ∀ op ∈ limits, ∃ n ∈ ctx.candidates, op = .limit n := by
  unfold topAmountRecipe? at h
  obtain ⟨amount, hamount, h⟩ := Option.bind_eq_some_iff.1 h
  obtain ⟨-, -, h⟩ := Option.bind_eq_some_iff.1 h
  dsimp only at h
  split at h
  · rename_i n hn
    cases h
    refine ⟨rfl, amount, [.limit n], hamount, rfl, fun op hop => ⟨n, ?_, List.mem_singleton.1 hop⟩⟩
    exact List.mem_of_find?_eq_some hn
  · cases h
    exact ⟨rfl, amount, [], hamount, rfl, by simp⟩

theorem category_recipe?_eq_some {c : Category} {ctx : Context} {r : Recipe}
    (h : c.recipe? ctx = some r) : r.id = c.name ++ "_table" ∧ ∃ column value,
      ctx.schema.findColumn? c.columnKeywords = some column ∧
      r.operations = [.filter column (.string value), selectAll ctx] := by
  unfold Category.recipe? at h
  obtain ⟨column, hcolumn, h⟩ := Option.bind_eq_some_iff.1 h
  obtain ⟨value, -, h⟩ := Option.bind_eq_some_iff.1 h
  cases h
  exact ⟨rfl, column, value, hcolumn, rfl⟩

def summaryAggregation (ctx : Context) (key : String) : Aggregation :=
  match (ctx.schema.findColumn? amountColumn).filter (· != key) with
  | some amount => ⟨amount, .sum, sumLabel⟩
  | none => ⟨key, .count, countLabel⟩

theorem groupSummaryRecipe?_eq_some {ctx : Context} {r : Recipe}
    (h : groupSummaryRecipe? ctx = some r) : r.id = "group_summary_table" ∧ ∃ key,
      groupKey? ctx = some key ∧
      r.operations = [.groupBy [key] [summaryAggregation ctx key],
        .orderBy (summaryAggregation ctx key).label .descending] := by
  unfold groupSummaryRecipe? at h
  obtain ⟨-, -, h⟩ := Option.bind_eq_some_iff.1 h
  obtain ⟨key, hkey, h⟩ := Option.bind_eq_some_iff.1 h
  cases h
  exact ⟨rfl, key, hkey, rfl⟩

theorem detailRecipe?_eq_some {ctx : Context} {r : Recipe} (h : detailRecipe? ctx = some r) :
    r.id = "detail_table" ∧ ∃ first fields,
      r.operations = [.select fields, .orderBy first .descending] := by
  unfold detailRecipe? at h
  obtain ⟨-, -, h⟩ := Option.bind_eq_some_iff.1 h
  obtain ⟨first, -, h⟩ := Option.bind_eq_some_iff.1 h
  cases h
  exact ⟨rfl, first, _, rfl⟩

def recipeIds : List String :=
  ["top_amount_table", "region_filter_table", "category_filter_table", "payment_filter_table",
   "group_summary_table", "detail_table"]

theorem id_of_detected {ctx : Context} {d : Detector} (hd : d ∈ Detector.standard) {r : Recipe}
    (hr : d.detect ctx = some r) : r.id ∈ recipeIds := by
  simp only [Detector.standard, List.mem_cons, List.not_mem_nil, or_false] at hd
  rcases hd with rfl | rfl | rfl | rfl | rfl | rfl
  · simp [(topAmountRecipe?_eq_some hr).1, recipeIds]
  · simp [(category_recipe?_eq_some hr).1, recipeIds, Category.region]
  · simp [(category_recipe?_eq_some hr).1, recipeIds, Category.category]
  · simp [(category_recipe?_eq_some hr).1, recipeIds, Category.payment]
  · simp [(groupSummaryRecipe?_eq_some hr).1, recipeIds]
  · simp [(detailRecipe?_eq_some hr).1, recipeIds]

theorem exact_of_category {c : Category} {ctx : Context} {r : Recipe} (h : c.recipe? ctx = some r) :
    ∀ op ∈ r.operations, op.Exact := by
  obtain ⟨-, column, value, -, hops⟩ := category_recipe?_eq_some h
  have hvalue : (Json.Value.string value).Exact 100 := .string value
  rw [hops]
  simp [hvalue, selectAll, Operation.Exact]

theorem exact_of_detected {ctx : Context} (hcandidates : ∀ n ∈ ctx.candidates, Json.Number.Signed n)
    {d : Detector} (hd : d ∈ Detector.standard) {r : Recipe} (hr : d.detect ctx = some r) :
    ∀ op ∈ r.operations, op.Exact := by
  simp only [Detector.standard, List.mem_cons, List.not_mem_nil, or_false] at hd
  rcases hd with rfl | rfl | rfl | rfl | rfl | rfl
  · obtain ⟨-, amount, limits, -, hops, hlimits⟩ := topAmountRecipe?_eq_some hr
    have hexact : ∀ op ∈ limits, op.Exact := by
      intro op hop
      obtain ⟨n, hn, rfl⟩ := hlimits op hop
      exact hcandidates n hn
    rw [hops]
    simpa [selectAll, Operation.Exact] using hexact
  · exact exact_of_category hr
  · exact exact_of_category hr
  · exact exact_of_category hr
  · obtain ⟨-, key, -, hops⟩ := groupSummaryRecipe?_eq_some hr
    rw [hops]
    simp [Operation.Exact]
  · obtain ⟨-, first, fields, hops⟩ := detailRecipe?_eq_some hr
    rw [hops]
    simp [Operation.Exact]

namespace Planner

theorem id_of_propose {p : Planner} (hdetectors : p.detectors = Detector.standard)
    {prompt : String} {schema : Schema} {r : Recipe}
    (hr : r ∈ (p.propose prompt schema).plan.recipes) : r.id ∈ defaultRecipeId :: recipeIds := by
  rcases eq_default_or_detected hr with rfl | ⟨d, hd, hdetect⟩
  · exact List.mem_cons_self
  · exact List.mem_cons_of_mem _ (id_of_detected (hdetectors ▸ hd) hdetect)

theorem exact_recipe_of_propose {p : Planner} (hdetectors : p.detectors = Detector.standard)
    (hcandidates : ∀ n ∈ p.candidates, Json.Number.Signed n) {prompt : String} {schema : Schema}
    {r : Recipe} (hr : r ∈ (p.propose prompt schema).plan.recipes) :
    r.id ∈ defaultRecipeId :: recipeIds ∧ ∀ op ∈ r.operations, op.Exact := by
  refine ⟨id_of_propose hdetectors hr, ?_⟩
  rcases eq_default_or_detected hr with rfl | ⟨d, hd, hdetect⟩
  · simp [defaultRecipe, Operation.selectAll, Operation.Exact]
  · exact exact_of_detected hcandidates (hdetectors ▸ hd) hdetect

end Planner
end TablePlanner.Prompt
