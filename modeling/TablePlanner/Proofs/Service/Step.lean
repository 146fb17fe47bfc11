import TablePlanner.Service.Request

/-! Only a successful upload and a successful execution touch the stored tables, and only the latter
the lineage; all else moves nothing but counters. -/
namespace TablePlanner

namespace State

/-- Whether two states agree in all but their counters. -/
def SameButCounters (s s' : State) : Prop := s' = { s with metrics := s'.metrics }

theorem SameButCounters.refl (s : State) : SameButCounters s s := rfl

theorem SameButCounters.trans {s s' s'' : State} (h : s.SameButCounters s')
    (h' : s'.SameButCounters s'') : s.SameButCounters s'' := by
  unfold SameButCounters at h h' ⊢
  rw [h', h]

theorem sameButCounters_run (s : State) (source : Table) (plan : Plan) :
    SameButCounters s (s.run source plan).1 := by
  unfold run
  split <;> rfl

theorem sameButCounters_generate (s : State) (prompt : String) (file : Option String) :
    SameButCounters s (s.generate prompt file).1 := by
  cases file with
  | none => rfl
  | some name =>
    unfold generate
    dsimp only
    split
    · rfl
    · next source _ =>
      have hcount : s.SameButCounters
          (s.countProposal (s.planner.propose prompt source.schema)) := rfl
      have hrun := sameButCounters_run (s.countProposal (s.planner.propose prompt source.schema))
        source (s.planner.propose prompt source.schema).plan
      unfold generateFor
      dsimp only
      split <;> next heq =>
        rw [heq] at hrun
        exact hcount.trans hrun

theorem sameButCounters_generatePlan (s : State) (prompt : String) (files : List String) :
    SameButCounters s (s.generatePlan prompt files).1 := by
  unfold generatePlan
  split <;> rfl

theorem sameButCounters_executePlan (s : State) (plan : Plan) (files : List String) :
    SameButCounters s (s.executePlan plan files).1 := by
  unfold executePlan
  split
  · rfl
  · split
    · rfl
    · next source _ =>
      have hrun := sameButCounters_run s source plan
      split <;> next heq =>
        rw [heq] at hrun
        exact hrun.trans rfl

def proposal (s : State) (prompt : String) (source : Table) : Prompt.Planner.Proposal :=
  s.planner.propose prompt source.schema

theorem SameButCounters.registry_eq {s s' : State} (h : s.SameButCounters s') :
    s'.registry = s.registry := by
  rw [h]

theorem proposal_of_settings {s s' : State} (h : s'.settings = s.settings) (prompt : String)
    (source : Table) : s'.proposal prompt source = s.proposal prompt source := by
  unfold proposal planner
  rw [h]

theorem SameButCounters.settings_eq {s s' : State} (h : s.SameButCounters s') :
    s'.settings = s.settings := by
  rw [h]

theorem SameButCounters.proposal_eq {s s' : State} (h : s.SameButCounters s') (prompt : String)
    (source : Table) : s'.proposal prompt source = s.proposal prompt source :=
  proposal_of_settings h.settings_eq prompt source

theorem find_of_get? {s : State} {name : String} {t : Table} (h : s.registry.get? name = some t) :
    s.find name = .ok t := by
  simp only [find, Registry.get, h]

theorem get?_of_find {s : State} {name : String} {t : Table} (h : s.find name = .ok t) :
    s.registry.get? name = some t := by
  unfold find Registry.get at h
  cases hget : s.registry.get? name with
  | none =>
    rw [hget] at h
    cases h
  | some found =>
    rw [hget] at h
    cases h
    rfl

/-- The state after a prompt was executed on the table `source`, named `file`, with `outcome`. -/
def afterExecute (s : State) (prompt file : String) (source : Table) (outcome : Outcome) : State :=
  let result := stored file source outcome
  let counted := (s.countProposal (s.proposal prompt source)).countNoops outcome.trace.length
  let run := lineageRun prompt file (s.proposal prompt source).plan.fingerprint source result
  { counted with
    registry := s.registry.insert result.name result.table
    lineage := s.lineage.record run }.countTransform result.outcome

theorem execute_of_missing {s : State} {file : String} {e : ServiceError}
    (h : s.find file = .error e) (prompt : String) : s.execute prompt file = (s, .error e) := by
  simp only [execute, h]

theorem execute_of_failure {s : State} {prompt file : String} {source : Table} {e : ExecutionError}
    (h : s.find file = .ok source) (hrun : (s.proposal prompt source).plan.run source = .error e) :
    s.execute prompt file =
      ((s.countProposal (s.proposal prompt source)).countTransform .error,
        .error (.execution e)) := by
  unfold proposal at hrun
  simp only [execute, h, run, hrun]
  rfl

theorem execute_of_success {s : State} {prompt file : String} {source : Table} {outcome : Outcome}
    (h : s.find file = .ok source)
    (hrun : (s.proposal prompt source).plan.run source = .ok outcome) :
    s.execute prompt file =
      (s.afterExecute prompt file source outcome,
        .ok ⟨s.proposal prompt source, stored file source outcome,
          (stored file source outcome).table.preview s.settings.engine.preview,
          outcome.trace⟩) := by
  unfold proposal at hrun
  simp only [execute, h, run, hrun]
  rfl

theorem run_of_ok {s : State} {source : Table} {plan : Plan} {outcome : Outcome}
    (h : plan.run source = .ok outcome) :
    s.run source plan = (s.countNoops outcome.trace.length, .ok outcome) := by
  simp only [run, h]

theorem run_of_error {s : State} {source : Table} {plan : Plan} {e : ExecutionError}
    (h : plan.run source = .error e) :
    s.run source plan = (s.countTransform .error, .error (.execution e)) := by
  simp only [run, h]

theorem generate_of_missing {s : State} {file : String} {e : ServiceError}
    (h : s.find file = .error e) (prompt : String) :
    s.generate prompt (some file) = (s, .error e) := by
  simp only [generate, h]

theorem generate_of_found {s : State} {file : String} {source : Table}
    (h : s.find file = .ok source) (prompt : String) :
    s.generate prompt (some file) = s.generateFor prompt source := by
  unfold generate
  dsimp only
  rw [h]

theorem generateFor_of_failure {s : State} {prompt : String} {source : Table}
    {e : ExecutionError}
    (hrun : (s.proposal prompt source).plan.run source = .error e) :
    s.generateFor prompt source =
      ((s.countProposal (s.proposal prompt source)).countTransform .error,
        .error (.execution e)) := by
  have h := run_of_error (s := s.countProposal (s.proposal prompt source)) hrun
  unfold proposal at h
  unfold generateFor
  dsimp only
  rw [h]
  rfl

theorem generateFor_of_success {s : State} {prompt : String} {source : Table} {outcome : Outcome}
    (hrun : (s.proposal prompt source).plan.run source = .ok outcome) :
    ∃ preview, s.generateFor prompt source =
      ((s.countProposal (s.proposal prompt source)).countNoops outcome.trace.length,
        .ok ⟨s.proposal prompt source, preview⟩) := by
  have h := run_of_ok (s := s.countProposal (s.proposal prompt source)) hrun
  unfold proposal at h
  unfold generateFor
  dsimp only
  rw [h]
  exact ⟨_, rfl⟩

theorem generatePlan_of_found {s : State} {file : String} {source : Table}
    (h : s.find file = .ok source) (prompt : String) :
    s.generatePlan prompt [file] =
      (s.countProposal (s.proposal prompt source), .ok (s.proposal prompt source).plan) := by
  simp only [generatePlan, findFirst, h]
  rfl

theorem executePlan_of_failure {s : State} {plan : Plan} {file : String} {source : Table}
    {e : ExecutionError} (hcheck : plan.check = .ok ()) (h : s.find file = .ok source)
    (hrun : plan.run source = .error e) :
    s.executePlan plan [file] = (s.countTransform .error, .error (.execution e)) := by
  simp only [executePlan, hcheck, findFirst, h, run, hrun]

theorem executePlan_of_success {s : State} {plan : Plan} {file : String} {source : Table}
    {outcome : Outcome} (hcheck : plan.check = .ok ()) (h : s.find file = .ok source)
    (hrun : plan.run source = .ok outcome) :
    s.executePlan plan [file] =
      ((s.countNoops outcome.trace.length).countTransform .preview, .ok outcome) := by
  simp only [executePlan, hcheck, findFirst, h, run, hrun]

end State

namespace Service

theorem reply_fst (toReply : α → Reply) (result : State × Except ServiceError α) :
    (reply toReply result).1 = result.1 := by
  unfold reply
  split <;> rfl

/-- What an action does to the state: it moves counters only, or it is an upload of records that
make a table, or it executes a prompt whose plan runs on a stored table. -/
theorem act_cases (s : State) (a : Action) :
    s.SameButCounters (act s a).1 ∨
      (∃ name records t, a = .upload name records ∧ Table.ofRecords records = .ok t ∧
        (act s a).1 = { s with registry := s.registry.insert name t }) ∨
      (∃ prompt file source outcome, a = .execute prompt file ∧ s.find file = .ok source ∧
        (s.proposal prompt source).plan.run source = .ok outcome ∧
        (act s a).1 = s.afterExecute prompt file source outcome) := by
  cases a with
  | generate prompt file =>
    rw [act, reply_fst]
    exact .inl (s.sameButCounters_generate prompt file)
  | execute prompt file =>
    rw [act, reply_fst]
    cases hfind : s.find file with
    | error e =>
      rw [State.execute_of_missing hfind]
      exact .inl rfl
    | ok source =>
      cases hrun : (s.proposal prompt source).plan.run source with
      | error e =>
        rw [State.execute_of_failure hfind hrun]
        exact .inl rfl
      | ok outcome =>
        rw [State.execute_of_success hfind hrun]
        exact .inr (.inr ⟨prompt, file, source, outcome, rfl, hfind, hrun, rfl⟩)
  | validate prompt => exact .inl rfl
  | generatePlan prompt files =>
    rw [act, reply_fst]
    exact .inl (s.sameButCounters_generatePlan prompt files)
  | executePlan plan files =>
    rw [act, reply_fst]
    exact .inl (s.sameButCounters_executePlan plan files)
  | upload name records =>
    rw [act, reply_fst]
    unfold State.upload
    split
    · exact .inl rfl
    · next t ht => exact .inr (.inl ⟨name, records, t, rfl, ht, rfl⟩)
  | table name markdown =>
    rw [act, reply_fst]
    exact .inl rfl
  | tables => exact .inl rfl
  | lineage => exact .inl rfl
  | metrics => exact .inl rfl
  | health => exact .inl rfl

def Result.ofAct : Except ServiceError Reply → Result
  | .ok reply => .replied reply
  | .error e => .failed e

theorem serve_of_action {s : State} {r : Request} {a : Action} (h : action r = .ok a) :
    serve s r = ((act s a).1, .ofAct (act s a).2) := by
  unfold serve
  rw [h]
  dsimp only
  split <;> next heq => rw [heq]; rfl

theorem serve_of_rejected {s : State} {r : Request} {status : Nat}
    (h : action r = .error status) : serve s r = (s, .rejected status) := by
  unfold serve
  rw [h]

theorem respond_state (s : State) (r : Request) :
    (respond s r).1 = s ∨ ∃ a, (respond s r).1 = (act s a).1 := by
  change (serve s r).1 = s ∨ ∃ a, (serve s r).1 = (act s a).1
  cases haction : action r with
  | error status => exact .inl (congrArg Prod.fst (serve_of_rejected haction))
  | ok a => exact .inr ⟨a, congrArg Prod.fst (serve_of_action haction)⟩

/-- What every action keeps, any requests keep. -/
theorem respondAll_invariant {P : State → Prop} (step : ∀ s a, P s → P (act s a).1) {s : State}
    (h : P s) (requests : List Request) : P (respondAll s requests).1 := by
  induction requests generalizing s with
  | nil => exact h
  | cons r requests ih =>
    have hr : P (respond s r).1 := by
      rcases respond_state s r with hsame | ⟨a, ha⟩
      · exact hsame.symm ▸ h
      · exact ha.symm ▸ step s a h
    exact ih hr

theorem respondAll_append (s : State) (before after : List Request) :
    (respondAll s (before ++ after)).1 = (respondAll (respondAll s before).1 after).1 := by
  induction before generalizing s with
  | nil => rfl
  | cons r before ih => exact ih (respond s r).1

theorem respondAll_after {P : State → Prop} (step : ∀ s a, P s → P (act s a).1) {s : State}
    {before after : List Request} {r : Request}
    (h : P (serve (respondAll s before).1 r).1) : P (respondAll s (before ++ r :: after)).1 := by
  rw [respondAll_append]
  exact respondAll_invariant step (s := (serve (respondAll s before).1 r).1) h after

end Service
end TablePlanner
