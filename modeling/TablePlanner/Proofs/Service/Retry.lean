import TablePlanner.Proofs.Json.Members
import TablePlanner.Proofs.Lineage.Graph
import TablePlanner.Proofs.Service.Effect

namespace TablePlanner

theorem Registry.insert_of_get? {r : Registry} {name : String} {t : Table}
    (h : r.get? name = some t) : r.insert name t = r := by
  unfold Registry.insert
  rw [Json.putMember_of_lookup h]

namespace State
variable {s s' : State} {prompt file : String} {source : Table} {outcome : Outcome}

/-- Whether the execution of a prompt finds all in place that it leaves behind. -/
structure Settled (s : State) (prompt file : String) (source : Table) (outcome : Outcome) :
    Prop where
  found : s.registry.get? file = some source
  run : (s.proposal prompt source).plan.run source = .ok outcome
  kept : s.registry.get? (stored file source outcome).name =
    some (stored file source outcome).table
  recorded : s.lineage.Holds (lineageRun prompt file
    (s.proposal prompt source).plan.fingerprint source (stored file source outcome))

theorem settled_afterExecute (hfile : s.registry.get? file = some source)
    (hrun : (s.proposal prompt source).plan.run source = .ok outcome) :
    (s.afterExecute prompt file source outcome).Settled prompt file source outcome where
  found := by
    obtain ⟨origin, -, hname⟩ := Service.keeps_stored file source outcome
    have hne : file ≠ (stored file source outcome).name := by
      rw [hname]
      exact (Service.outputName_ne _ _).symm
    exact (Registry.get?_insert_of_ne _ hne _).trans hfile
  run := hrun
  kept := Registry.get?_insert_self _ _ _
  recorded := LineageGraph.holds_record _ _

theorem Settled.of_sameButCounters (h : s.Settled prompt file source outcome)
    (hs : s.SameButCounters s') : s'.Settled prompt file source outcome := by
  rw [hs]
  exact ⟨h.found, h.run, h.kept, h.recorded⟩

theorem Settled.sameButCounters (h : s.Settled prompt file source outcome) :
    s.SameButCounters (s.afterExecute prompt file source outcome) := by
  have hregistry : (s.afterExecute prompt file source outcome).registry = s.registry :=
    Registry.insert_of_get? h.kept
  have hlineage : (s.afterExecute prompt file source outcome).lineage = s.lineage :=
    LineageGraph.record_of_holds h.recorded
  unfold SameButCounters
  calc s.afterExecute prompt file source outcome
      = { settings := s.settings
          registry := (s.afterExecute prompt file source outcome).registry
          lineage := (s.afterExecute prompt file source outcome).lineage
          metrics := (s.afterExecute prompt file source outcome).metrics } := rfl
    _ = _ := by rw [hregistry, hlineage]

def executed (s : State) (prompt file : String) (source : Table) (outcome : Outcome) : Executed :=
  ⟨s.proposal prompt source, stored file source outcome,
    (stored file source outcome).table.preview s.settings.engine.preview, outcome.trace⟩

theorem executed_of_settings (h : s'.settings = s.settings) (prompt file : String)
    (source : Table) (outcome : Outcome) :
    s'.executed prompt file source outcome = s.executed prompt file source outcome := by
  unfold executed
  rw [proposal_of_settings h, h]

end State

namespace Service

theorem respondAll_replicate {P : State → Prop} {r : Request} {response : Response}
    (step : ∀ s, P s → P (respond s r).1 ∧ (respond s r).2 = response) {s : State} (h : P s)
    (n : Nat) : P (respondAll s (List.replicate n r)).1 ∧
      (respondAll s (List.replicate n r)).2 = List.replicate n response := by
  induction n generalizing s with
  | zero => exact ⟨h, rfl⟩
  | succ n ih =>
    obtain ⟨hnext, hresponse⟩ := step s h
    obtain ⟨hlast, hresponses⟩ := ih hnext
    refine ⟨hlast, ?_⟩
    calc (respondAll s (List.replicate (n + 1) r)).2
        = (respond s r).2 :: (respondAll (respond s r).1 (List.replicate n r)).2 := rfl
      _ = List.replicate (n + 1) response := by
        rw [hresponse, hresponses, List.replicate_succ]

section
variable {s s' : State} {r : Request} {prompt file : String} {source : Table} {outcome : Outcome}

theorem serve_of_run (haction : action r = .ok (.execute prompt file))
    (hfile : s.registry.get? file = some source)
    (hrun : (s.proposal prompt source).plan.run source = .ok outcome) :
    serve s r = (s.afterExecute prompt file source outcome,
      .replied (.executed (s.executed prompt file source outcome))) :=
  serve_of_ok haction rfl (State.execute_of_success (State.find_of_get? hfile) hrun)

/-- Where an execution finds all in place, it moves counters only. -/
theorem respond_of_settled (haction : action r = .ok (.execute prompt file))
    (h : s.Settled prompt file source outcome) (hs : s.SameButCounters s') :
    s.SameButCounters (respond s' r).1 ∧ (respond s' r).2 = (respond s r).2 := by
  have h' := h.of_sameButCounters hs
  have hserve := serve_of_run haction h.found h.run
  have hserve' := serve_of_run haction h'.found h'.run
  rw [State.executed_of_settings hs.settings_eq] at hserve'
  constructor
  · simp only [respond, hserve']
    exact hs.trans h'.sameButCounters
  · simp only [respond, hserve, hserve']

/-- A request to execute a prompt that succeeded may be sent again any number of times: each time
the response is that of the first time, and the tables and the lineage stay as the first time left
them. -/
theorem retry_moves_counters_only {x : State.Executed}
    (haction : action r = .ok (.execute prompt file))
    (hanswer : (serve s r).2 = .replied (.executed x)) (n : Nat) :
    (respondAll (respond s r).1 (List.replicate n r)).2 = List.replicate n (respond s r).2 ∧
      (respond s r).1.SameButCounters
        (respondAll (respond s r).1 (List.replicate n r)).1 := by
  obtain ⟨source, outcome, hfile, hrun, -⟩ := run_of_executed haction hanswer
  have hserve := serve_of_run haction hfile hrun
  have hstate : (respond s r).1 = s.afterExecute prompt file source outcome := by
    simp only [respond, hserve]
  have hsettled := State.settled_afterExecute hfile hrun
  have hagain : (respond (s.afterExecute prompt file source outcome) r).2 = (respond s r).2 := by
    have hnext := serve_of_run haction hsettled.found hsettled.run
    simp only [respond, hserve, hnext]
    rfl
  rw [hstate]
  have hstep : ∀ s', (s.afterExecute prompt file source outcome).SameButCounters s' →
      (s.afterExecute prompt file source outcome).SameButCounters (respond s' r).1 ∧
        (respond s' r).2 = (respond s r).2 := by
    intro s' hs
    rw [← hagain]
    exact respond_of_settled haction hsettled hs
  obtain ⟨hlast, hresponses⟩ := respondAll_replicate hstep (.refl _) n
  exact ⟨hresponses, hlast⟩

end

theorem shop_retry_moves_counters_only :
    action (executeRequest "서울 top 5" "판매\"1") = .ok (.execute "서울 top 5" "판매\"1") ∧
      (∃ x, (serve shop (executeRequest "서울 top 5" "판매\"1")).2 = .replied (.executed x)) ∧
      (respondAll (respond shop (executeRequest "서울 top 5" "판매\"1")).1
        [executeRequest "서울 top 5" "판매\"1"]).2 =
          [(respond shop (executeRequest "서울 top 5" "판매\"1")).2] ∧
      (respond shop (executeRequest "서울 top 5" "판매\"1")).1.SameButCounters
        (respondAll (respond shop (executeRequest "서울 top 5" "판매\"1")).1
          [executeRequest "서울 top 5" "판매\"1"]).1 := by
  have haction := action_executeRequest "서울 top 5" "판매\"1"
  have hserve := serve_of_run (s := shop) haction rfl rfl
  have hanswer := congrArg Prod.snd hserve
  exact ⟨haction, ⟨_, hanswer⟩, retry_moves_counters_only haction hanswer 1⟩

end Service
end TablePlanner
