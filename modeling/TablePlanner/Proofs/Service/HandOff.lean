import TablePlanner.Proofs.Execution.Run
import TablePlanner.Proofs.Prompt.Detected
import TablePlanner.Proofs.Service.Sent

/-! Executing a prompt and sending its plan back run one plan on one table, so they fail alike or
show results of one run. -/
namespace TablePlanner
open Json

theorem Outcome.lookup_of_stored_name {o : Outcome} {id file : String} {source : Table}
    (hids : (o.results.map (·.1)).Nodup) (hsmart : "smart" ∉ o.results.map (·.1))
    (hid : id ∈ o.results.map (·.1))
    (hname : (State.stored file source o).name = id ++ "_" ++ file) :
    o.results.lookup id = some (State.stored file source o).table := by
  unfold State.stored at hname ⊢
  split at hname
  · rename_i other t hfirst
    have hsame : other = id := by
      rw [String.append_left_inj, String.append_left_inj] at hname
      exact hname
    subst hsame
    exact lookup_of_mem hids (List.mem_of_find?_eq_some hfirst)
  · have hsame : "smart" ++ "_" ++ file = id ++ "_" ++ file := hname
    rw [String.append_left_inj, String.append_left_inj] at hsame
    exact absurd (hsame ▸ hid) hsmart

namespace Service

theorem resultsJson_of_nodup {results : List (String × Table)}
    (hids : (results.map (·.1)).Nodup) :
    resultsJson results = .object (results.map fun r => (r.1, resultJson r.2)) := by
  rw [resultsJson, foldl_putMember (by simpa using hids), List.nil_append]

/-- How the answer to a plan that was sent back agrees with the execution of its prompt. -/
structure Agrees (plan : Plan) (file : String) (source : Table) (executed : State.Executed)
    (ran : Outcome) : Prop where
  planned : executed.proposal.plan = plan
  ids : ran.results.map (·.1) = plan.ids ∧ plan.ids.Nodup
  own : List.Forall₂ (fun r e => e.1 = r.id ∧ ∃ trace, r.run source = .ok (e.2, trace))
    plan.recipes ran.results
  shown : resultsJson ran.results = .object (ran.results.map fun e =>
    (e.1, .object [("columns", .strings e.2.columns), ("data", .array (e.2.head 20).toRecords)]))
  trace : ran.trace = executed.trace
  /-- If the stored table is named for a recipe, the entry of that recipe shows its first rows. -/
  stored : ∀ id ∈ plan.ids, executed.stored.name = id ++ "_" ++ file →
    ∃ members, resultsJson ran.results = .object members ∧ members.lookup id = some (.object
      [("columns", .strings executed.stored.table.columns),
       ("data", .array (executed.stored.table.head 20).toRecords)])

theorem agrees_of_run {s : State} {prompt file : String} {source : Table} {outcome : Outcome}
    (hids : (s.proposal prompt source).plan.ids.Nodup)
    (hsmart : "smart" ∉ (s.proposal prompt source).plan.ids)
    (hrun : (s.proposal prompt source).plan.run source = .ok outcome) (preview : List Value) :
    Agrees (s.proposal prompt source).plan file source
      ⟨s.proposal prompt source, State.stored file source outcome, preview, outcome.trace⟩
      outcome := by
  have hresults := Plan.ids_of_run hrun
  have hnodup : (outcome.results.map (·.1)).Nodup := hresults ▸ hids
  have hshown := resultsJson_of_nodup hnodup
  refine ⟨rfl, ⟨hresults, hids⟩, runRecipes_ok hrun, hshown, rfl, fun id hid hname => ?_⟩
  have hstored : outcome.results.lookup id = some (State.stored file source outcome).table :=
    Outcome.lookup_of_stored_name hnodup (hresults ▸ hsmart) (hresults ▸ hid) hname
  exact ⟨_, hshown, lookup_map_snd hstored⟩

section
variable {s : State} {prompt file : String} {source : Table}

theorem exact_proposal (hcandidates : ∀ n ∈ s.settings.engine.candidates, Number.Signed n) :
    (s.proposal prompt source).plan.Exact := fun _ hr =>
  (Prompt.Planner.exact_recipe_of_propose rfl hcandidates hr).2

theorem smart_not_mem_ids (hcandidates : ∀ n ∈ s.settings.engine.candidates, Number.Signed n) :
    "smart" ∉ (s.proposal prompt source).plan.ids := by
  -- The identifiers of recipes are those of the detectors and that of the default recipe.
  intro h
  obtain ⟨r, hr, hid⟩ := List.mem_map.1 h
  have hmem := (Prompt.Planner.exact_recipe_of_propose rfl hcandidates hr).1
  rw [hid] at hmem
  exact absurd hmem (by decide)

end

/-- Executing a prompt and sending its plan back end alike: in one error of the run, or in replies
that agree. -/
inductive EndAlike (s : State) (prompt file : String) (source : Table) (plan : Plan) : Prop where
  | failed (e : ExecutionError)
    (executed : (serve s (executeRequest prompt file)).2 = .failed (.execution e))
    (sent : (serve s (executePlanRequest plan file)).2 = .failed (.execution e))
  | succeeded (x : State.Executed) (ran : Outcome)
    (executed : (serve s (executeRequest prompt file)).2 = .replied (.executed x))
    (kept : (serve s (executeRequest prompt file)).1.registry.get? x.stored.name =
      some x.stored.table)
    (sent : (serve s (executePlanRequest plan file)).2 = .replied (.ran ran))
    (agrees : Agrees plan file source x ran)

theorem endAlike_of_exact {s : State} {prompt file : String} {source : Table}
    (hfind : s.find file = .ok source) (hexact : (s.proposal prompt source).plan.Exact)
    (hcheck : (s.proposal prompt source).plan.check = .ok ())
    (hsmart : "smart" ∉ (s.proposal prompt source).plan.ids) :
    EndAlike s prompt file source (s.proposal prompt source).plan := by
  have haction := action_executeRequest prompt file
  have hsent := action_executePlanRequest hexact file
  cases hrun : (s.proposal prompt source).plan.run source with
  | error e =>
    refine .failed e ?_ ?_
    · rw [serve_of_error haction rfl (State.execute_of_failure hfind hrun)]
    · rw [serve_of_error hsent rfl (State.executePlan_of_failure hcheck hfind hrun)]
  | ok outcome =>
    have hids : (s.proposal prompt source).plan.ids.Nodup := (Plan.check_eq_ok_iff.1 hcheck).2
    have hexecuted := serve_of_ok haction rfl (State.execute_of_success hfind hrun)
    have hran := serve_of_ok hsent rfl (State.executePlan_of_success hcheck hfind hrun)
    refine .succeeded _ outcome (by rw [hexecuted]) ?_ (by rw [hran])
      (agrees_of_run hids hsmart hrun _)
    rw [hexecuted]
    exact Registry.get?_insert_self _ _ _

/-- The plan that is answered for a prompt and a stored table passes its check and, sent back in
any state that differs in counters only, ends as executing the prompt does. The candidates have 64
signed bits, as in all settings that were read. -/
theorem hand_off_ends_alike {s : State} {file : String} {source : Table}
    (hfile : s.registry.get? file = some source)
    (hcandidates : ∀ n ∈ s.settings.engine.candidates, Number.Signed n) (prompt : String) :
    ∃ plan, (serve s (planRequest prompt file)).2 = .replied (.planned plan) ∧
      s.SameButCounters (serve s (planRequest prompt file)).1 ∧ plan.check = .ok () ∧
      ∀ s', s.SameButCounters s' → EndAlike s' prompt file source plan := by
  have hcheck : (s.proposal prompt source).plan.check = .ok () :=
    Prompt.Planner.check_propose _ _ _
  have hplanned := serve_of_ok (action_planRequest prompt file) rfl
    (State.generatePlan_of_found (State.find_of_get? hfile) prompt)
  refine ⟨(s.proposal prompt source).plan, by rw [hplanned], by rw [hplanned]; rfl, hcheck, ?_⟩
  intro s' hs'
  have hfind : s'.find file = .ok source := State.find_of_get? (hs'.registry_eq ▸ hfile)
  have hproposal := hs'.proposal_eq prompt source
  rw [← hproposal] at hcheck ⊢
  refine endAlike_of_exact hfind ?_ hcheck ?_
  · rw [hproposal]
    exact exact_proposal hcandidates
  · rw [hproposal]
    exact smart_not_mem_ids hcandidates

def shop : State :=
  { State.initial Settings.standard with
    registry := ⟨[("판매\"1", ⟨["Amount\n", "지역"], [[.int 7, .string "Seoul"]]⟩)]⟩ }

theorem shop_hand_off_ends_alike :
    shop.registry.get? "판매\"1" = some ⟨["Amount\n", "지역"], [[.int 7, .string "Seoul"]]⟩ ∧
      (∀ n ∈ shop.settings.engine.candidates, Number.Signed n) ∧
      ∃ plan, (serve shop (planRequest "서울 top 5" "판매\"1")).2 = .replied (.planned plan) ∧
        shop.SameButCounters (serve shop (planRequest "서울 top 5" "판매\"1")).1 ∧
        plan.check = .ok () ∧
        ∀ s', shop.SameButCounters s' → EndAlike s' "서울 top 5" "판매\"1"
          ⟨["Amount\n", "지역"], [[.int 7, .string "Seoul"]]⟩ plan := by
  have hfile : shop.registry.get? "판매\"1" =
      some ⟨["Amount\n", "지역"], [[.int 7, .string "Seoul"]]⟩ := rfl
  have hcandidates : ∀ n ∈ shop.settings.engine.candidates, Number.Signed n := by decide
  exact ⟨hfile, hcandidates, hand_off_ends_alike hfile hcandidates _⟩

end Service
end TablePlanner
