import TablePlanner.Proofs.Json.Members
import TablePlanner.Proofs.Prompt.Agreement

namespace TablePlanner

section
variable {t u result : Table} {op : Operation} {ops : List Operation} {notes : List Note}
  {rest : List Diagnostic} {id : String} {index : Nat}

theorem runFrom_cons (happly : op.apply t = .ok (u, notes))
    (hrest : runFrom id (index + 1) u ops = .ok (result, rest)) :
    runFrom id index t (op :: ops) =
      .ok (result, notes.map (⟨id, index, op.kind, ·⟩) ++ rest) := by
  simp only [runFrom, happly, hrest]
  rfl

theorem Operation.exists_apply (t : Table) (hkind : op.kind ≠ "GROUP_BY") :
    ∃ u notes, op.apply t = .ok (u, notes) := by
  cases op with
  | groupBy keys aggregations => exact absurd rfl hkind
  | _ => exact ⟨_, _, rfl⟩

theorem exists_runFrom (id : String) (index : Nat) (t : Table)
    (hkinds : ∀ op ∈ ops, op.kind ≠ "GROUP_BY") :
    ∃ result trace, runFrom id index t ops = .ok (result, trace) := by
  induction ops generalizing index t with
  | nil => exact ⟨t, [], rfl⟩
  | cons op ops ih =>
    rw [List.forall_mem_cons] at hkinds
    obtain ⟨u, notes, happly⟩ := op.exists_apply t hkinds.1
    obtain ⟨result, rest, hrest⟩ := ih (index + 1) u hkinds.2
    exact ⟨_, _, runFrom_cons happly hrest⟩

end

section
variable {p : Plan} {r : Recipe} {t result : Table} {trace : List Diagnostic} {o : Outcome}

theorem Plan.exists_run (h : ∀ r ∈ p.recipes, ∃ result trace, r.run t = .ok (result, trace)) :
    ∃ o, p.run t = .ok o := by
  unfold Plan.run
  generalize p.recipes = recipes at h ⊢
  induction recipes with
  | nil => exact ⟨_, rfl⟩
  | cons r recipes ih =>
    rw [List.forall_mem_cons] at h
    obtain ⟨⟨result, trace, hr⟩, hrest⟩ := h
    obtain ⟨rest, hrest⟩ := ih hrest
    simp only [runRecipes, hr, hrest]
    exact ⟨_, rfl⟩

theorem Plan.get?_of_run (hids : p.ids.Nodup) (h : p.run t = .ok o) (hr : r ∈ p.recipes)
    (hrun : r.run t = .ok (result, trace)) : o.get? r.id = some result := by
  obtain ⟨e, he, hid, trace', hown⟩ := exists_of_mem_forall₂ (runRecipes_ok h).flip hr
  have hresult : e.2 = result := by
    rw [hrun] at hown
    cases hown
    rfl
  apply Json.lookup_of_mem
  · rwa [Plan.ids_of_run h]
  · rwa [← hid, ← hresult]

end

namespace Prompt
variable {t : Table} {prompt : String} {r : Recipe}

theorem kinds_or_groupSummary {ctx : Context} {d : Detector} (hd : d ∈ Detector.standard)
    (hr : d.detect ctx = some r) :
    (∀ op ∈ r.operations, op.kind ≠ "GROUP_BY") ∨ d = .groupSummary := by
  have hcategory : ∀ c : Category, c.recipe? ctx = some r →
      ∀ op ∈ r.operations, op.kind ≠ "GROUP_BY" := by
    intro c hc
    obtain ⟨-, column, value, -, hops⟩ := category_recipe?_eq_some hc
    rw [hops]
    simp [selectAll, Operation.kind]
  simp only [Detector.standard, List.mem_cons, List.not_mem_nil, or_false] at hd
  rcases hd with rfl | rfl | rfl | rfl | rfl | rfl
  · left
    obtain ⟨-, amount, limits, -, hops, hlimits⟩ := topAmountRecipe?_eq_some hr
    rw [hops]
    intro op hop
    rcases List.mem_append.1 hop with hop | hop
    · rw [List.mem_pair] at hop
      rcases hop with rfl | rfl
      · simp [selectAll, Operation.kind]
      · simp [Operation.kind]
    · obtain ⟨n, -, rfl⟩ := hlimits op hop
      simp [Operation.kind]
  · exact .inl (hcategory _ hr)
  · exact .inl (hcategory _ hr)
  · exact .inl (hcategory _ hr)
  · exact .inr rfl
  · left
    obtain ⟨-, first, fields, hops⟩ := detailRecipe?_eq_some hr
    rw [hops]
    simp [Operation.kind]

namespace Planner

theorem run_of_propose (hr : r ∈ (standard.propose prompt t.schema).plan.recipes) :
    (∃ result trace, r.run t = .ok (result, trace)) ∨
      groupSummaryRecipe? (standardContext prompt t) = some r := by
  rcases eq_default_or_detected hr with rfl | ⟨d, hd, hdetect⟩
  · exact .inl ⟨_, _, rfl⟩
  · rcases kinds_or_groupSummary hd hdetect with hkinds | rfl
    · exact .inl (exists_runFrom r.id 0 t hkinds)
    · exact .inr hdetect

theorem exists_run_of_propose
    (hsummary : ∀ r ∈ (standard.propose prompt t.schema).plan.recipes,
      groupSummaryRecipe? (standardContext prompt t) = some r →
        ∃ result trace, r.run t = .ok (result, trace)) :
    ∃ o, (standard.propose prompt t.schema).plan.run t = .ok o ∧
      ∀ r ∈ (standard.propose prompt t.schema).plan.recipes, ∀ result trace,
        r.run t = .ok (result, trace) → o.get? r.id = some result := by
  have hrun : ∃ o, (standard.propose prompt t.schema).plan.run t = .ok o := by
    apply Plan.exists_run
    intro r hr
    rcases run_of_propose hr with hran | hr'
    · exact hran
    · exact hsummary r hr hr'
  obtain ⟨o, ho⟩ := hrun
  refine ⟨o, ho, ?_⟩
  intro r hr result trace hran
  have hids := (Plan.check_eq_ok_iff.1 (check_propose standard prompt t.schema)).2
  exact Plan.get?_of_run hids ho hr hran

end Planner
end Prompt
end TablePlanner
