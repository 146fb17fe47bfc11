import TablePlanner.Proofs.Service.Effect

/-! A run that fails counts as an error and an execution as a success or a fallback. A plan that
fails its check is not run and not counted. -/
namespace TablePlanner

theorem TransformOutcome.name_inj {o other : TransformOutcome} (h : o.name = other.name) :
    o = other := by
  cases o <;> cases other <;> first | rfl | exact absurd h (by decide)

namespace State
variable {s s' : State}

/-- How many transforms were counted with an outcome. -/
def transforms (s : State) (outcome : TransformOutcome) : Nat :=
  s.metrics.transformed.count outcome.name

theorem transforms_of_same (h : s'.metrics.transformed = s.metrics.transformed)
    (o : TransformOutcome) : s'.transforms o = s.transforms o := by
  unfold transforms
  rw [h]

theorem transforms_of_added {o : TransformOutcome}
    (h : s'.metrics.transformed = s.metrics.transformed.add o.name) (other : TransformOutcome) :
    s'.transforms other = s.transforms other + if other = o then 1 else 0 := by
  unfold transforms
  rw [h]
  by_cases hother : other = o
  · rw [if_pos hother, hother, Tally.count_add_self]
  · rw [if_neg hother, Tally.count_add_of_ne _ (mt TransformOutcome.name_inj hother), Nat.add_zero]

end State

namespace Service

def serveAll (s : State) : List Request → State × List Result
  | [] => (s, [])
  | r :: rs =>
    let (s, result) := serve s r
    let (s, results) := serveAll s rs
    (s, result :: results)

def Request.responseOf (r : Request) (result : Result) : Response :=
  if r.method = "HEAD" then result.response.headOnly else result.response

theorem respondAll_eq_serveAll (s : State) (requests : List Request) :
    respondAll s requests = ((serveAll s requests).1,
      List.zipWith Request.responseOf requests (serveAll s requests).2) := by
  induction requests generalizing s with
  | nil => rfl
  | cons r requests ih =>
    simp only [respondAll, respond, ih, serveAll, List.zipWith_cons_cons, Request.responseOf]

/-- Whether an answer carries an error of an execution. -/
def Result.carriesExecutionError : Result → Bool
  | .failed (.execution _) => true
  | _ => false

/-- Whether an answer turns down a plan that was sent. -/
def Result.rejectsPlan : Result → Bool
  | .failed (.execution (.invalidPlan _)) => true
  | _ => false

theorem Result.carriesExecutionError_of_rejectsPlan {result : Result}
    (h : result.rejectsPlan = true) : result.carriesExecutionError = true := by
  unfold rejectsPlan at h
  split at h
  · rfl
  · cases h

def Result.isExecuted : Result → Bool
  | .replied (.executed _) => true
  | _ => false

/-- What an action does to the counter of transforms, by its answer. -/
inductive Counted (s : State) (a : Action) : State → Result → Prop
  | uncounted {s' : State} {result : Result}
    (same : s'.metrics.transformed = s.metrics.transformed)
    (noError : result.carriesExecutionError = false) (other : result.isExecuted = false) :
    Counted s a s' result
  | rejected {plan : Plan} {files : List String} {e : PlanError}
    (sent : a = .executePlan plan files) (check : plan.check = .error e) :
    Counted s a s (.failed (.execution (.invalidPlan e)))
  | failed {s' : State} {table : String} {cell : NonNumeric}
    (added : s'.metrics.transformed = s.metrics.transformed.add TransformOutcome.error.name) :
    Counted s a s' (.failed (.execution (.nonNumeric table cell)))
  | executed {s' : State} {x : State.Executed}
    (added : s'.metrics.transformed = s.metrics.transformed.add x.stored.outcome.name)
    (outcome : x.stored.outcome = .success ∨ x.stored.outcome = .fallback) :
    Counted s a s' (.replied (.executed x))
  | previewed {s' : State} {o : Outcome}
    (added : s'.metrics.transformed = s.metrics.transformed.add TransformOutcome.preview.name) :
    Counted s a s' (.replied (.ran o))

theorem find_cases (s : State) (name : String) :
    (∃ t, s.find name = .ok t) ∨ ∃ e, s.find name = .error (.notFound e) := by
  unfold State.find
  split
  · exact .inl ⟨_, rfl⟩
  · exact .inr ⟨_, rfl⟩

theorem findFirst_cases (s : State) (files : List String) :
    (∃ t, s.findFirst files = .ok t) ∨
      ∃ e, s.findFirst files = .error e ∧ (Result.failed e).carriesExecutionError = false := by
  cases files with
  | nil => exact .inr ⟨_, rfl, rfl⟩
  | cons name files =>
    rcases find_cases s name with ⟨t, hfind⟩ | ⟨e, hfind⟩
    · exact .inl ⟨t, hfind⟩
    · exact .inr ⟨_, hfind, rfl⟩

theorem outcome_stored (file : String) (source : Table) (o : Outcome) :
    (State.stored file source o).outcome = .success ∨
      (State.stored file source o).outcome = .fallback := by
  unfold State.stored
  split
  · exact .inl rfl
  · exact .inr rfl

theorem counted_generate (s : State) (prompt : String) (file : Option String) :
    Counted s (.generate prompt file) (act s (.generate prompt file)).1
      (.ofAct (act s (.generate prompt file)).2) := by
  cases file with
  | none => exact .uncounted rfl rfl rfl
  | some name =>
    rcases find_cases s name with ⟨source, hfind⟩ | ⟨e, hfind⟩
    · rw [act, State.generate_of_found hfind]
      cases hrun : (s.proposal prompt source).plan.run source with
      | ok outcome =>
        obtain ⟨preview, hgenerated⟩ := State.generateFor_of_success hrun
        rw [hgenerated]
        exact .uncounted rfl rfl rfl
      | error e =>
        obtain ⟨r, -, cell, rfl⟩ := nonNumeric_of_runRecipes hrun
        rw [State.generateFor_of_failure hrun]
        exact .failed rfl
    · rw [act, State.generate_of_missing hfind]
      exact .uncounted rfl rfl rfl

theorem counted_execute (s : State) (prompt file : String) :
    Counted s (.execute prompt file) (act s (.execute prompt file)).1
      (.ofAct (act s (.execute prompt file)).2) := by
  rcases find_cases s file with ⟨source, hfind⟩ | ⟨e, hfind⟩
  · cases hrun : (s.proposal prompt source).plan.run source with
    | ok outcome =>
      rw [act, State.execute_of_success hfind hrun]
      exact .executed rfl (outcome_stored file source outcome)
    | error e =>
      obtain ⟨r, -, cell, rfl⟩ := nonNumeric_of_runRecipes hrun
      rw [act, State.execute_of_failure hfind hrun]
      exact .failed rfl
  · rw [act, State.execute_of_missing hfind]
    exact .uncounted rfl rfl rfl

theorem counted_generatePlan (s : State) (prompt : String) (files : List String) :
    Counted s (.generatePlan prompt files) (act s (.generatePlan prompt files)).1
      (.ofAct (act s (.generatePlan prompt files)).2) := by
  rw [act, State.generatePlan]
  rcases findFirst_cases s files with ⟨source, hfind⟩ | ⟨e, hfind, hother⟩
  · rw [hfind]
    exact .uncounted rfl rfl rfl
  · rw [hfind]
    exact .uncounted rfl hother rfl

theorem counted_executePlan (s : State) (plan : Plan) (files : List String) :
    Counted s (.executePlan plan files) (act s (.executePlan plan files)).1
      (.ofAct (act s (.executePlan plan files)).2) := by
  rw [act, State.executePlan]
  cases hcheck : plan.check with
  | error e => exact .rejected rfl hcheck
  | ok =>
    rcases findFirst_cases s files with ⟨source, hfind⟩ | ⟨e, hfind, hother⟩
    · rw [hfind]
      dsimp only
      cases hrun : plan.run source with
      | ok outcome =>
        rw [State.run_of_ok hrun]
        exact .previewed rfl
      | error e =>
        obtain ⟨r, -, cell, rfl⟩ := nonNumeric_of_runRecipes hrun
        rw [State.run_of_error hrun]
        exact .failed rfl
    · rw [hfind]
      exact .uncounted rfl hother rfl

theorem counted_act (s : State) (a : Action) :
    Counted s a (act s a).1 (.ofAct (act s a).2) := by
  cases a with
  | generate prompt file => exact counted_generate s prompt file
  | execute prompt file => exact counted_execute s prompt file
  | generatePlan prompt files => exact counted_generatePlan s prompt files
  | executePlan plan files => exact counted_executePlan s plan files
  | upload name records =>
    rw [act, State.upload]
    cases Table.ofRecords records <;> exact .uncounted rfl rfl rfl
  | table name markdown =>
    rw [act, State.catalog]
    rcases find_cases s name with ⟨t, hfind⟩ | ⟨e, hfind⟩ <;> rw [hfind] <;>
      exact .uncounted rfl rfl rfl
  | validate prompt => exact .uncounted rfl rfl rfl
  | tables => exact .uncounted rfl rfl rfl
  | lineage => exact .uncounted rfl rfl rfl
  | metrics => exact .uncounted rfl rfl rfl
  | health => exact .uncounted rfl rfl rfl

theorem rejected_or_counted (s : State) (r : Request) :
    (∃ status, serve s r = (s, .rejected status)) ∨
      ∃ a, action r = .ok a ∧ Counted s a (serve s r).1 (serve s r).2 := by
  cases haction : action r with
  | error status => exact .inl ⟨status, serve_of_rejected haction⟩
  | ok a =>
    refine .inr ⟨a, rfl, ?_⟩
    rw [serve_of_action haction]
    exact counted_act s a

section
variable {s s' : State} {a : Action} {result : Result}

theorem Counted.errors (h : Counted s a s' result) :
    s'.transforms .error + (if result.rejectsPlan then 1 else 0) =
      s.transforms .error + if result.carriesExecutionError then 1 else 0 := by
  cases h with
  | uncounted same noError other =>
    have hrejects : result.rejectsPlan = false := by
      rw [← Bool.not_eq_true]
      intro h
      rw [Result.carriesExecutionError_of_rejectsPlan h] at noError
      cases noError
    rw [State.transforms_of_same same, hrejects, noError]
  | rejected sent check => rfl
  | failed added =>
    rw [State.transforms_of_added added]
    rfl
  | executed added outcome =>
    rw [State.transforms_of_added added]
    rcases outcome with h | h <;> rw [h] <;> rfl
  | previewed added =>
    rw [State.transforms_of_added added]
    rfl

theorem Counted.executions (h : Counted s a s' result) :
    s'.transforms .success + s'.transforms .fallback =
      s.transforms .success + s.transforms .fallback + if result.isExecuted then 1 else 0 := by
  cases h with
  | uncounted same noError other =>
    rw [State.transforms_of_same same, State.transforms_of_same same, other]
    rfl
  | rejected sent check => rfl
  | failed added =>
    rw [State.transforms_of_added added, State.transforms_of_added added]
    rfl
  | @executed s' x added outcome =>
    rw [State.transforms_of_added added, State.transforms_of_added added]
    rcases outcome with h | h <;> simp [h, Result.isExecuted] <;> omega
  | previewed added =>
    rw [State.transforms_of_added added, State.transforms_of_added added]
    rfl

end

theorem transforms_serveAll (s : State) (requests : List Request) :
    (serveAll s requests).1.transforms .error +
        (serveAll s requests).2.countP Result.rejectsPlan =
      s.transforms .error + (serveAll s requests).2.countP Result.carriesExecutionError ∧
    (serveAll s requests).1.transforms .success + (serveAll s requests).1.transforms .fallback =
      s.transforms .success + s.transforms .fallback +
        (serveAll s requests).2.countP Result.isExecuted := by
  induction requests generalizing s with
  | nil => exact ⟨rfl, rfl⟩
  | cons r requests ih =>
    obtain ⟨herrors, hexecutions⟩ := ih (serve s r).1
    have hstep : (serve s r).1.transforms .error + (if (serve s r).2.rejectsPlan then 1 else 0) =
          s.transforms .error + (if (serve s r).2.carriesExecutionError then 1 else 0) ∧
        (serve s r).1.transforms .success + (serve s r).1.transforms .fallback =
          s.transforms .success + s.transforms .fallback +
            if (serve s r).2.isExecuted then 1 else 0 := by
      rcases rejected_or_counted s r with ⟨status, hserve⟩ | ⟨a, -, hcounted⟩
      · rw [hserve]
        exact ⟨rfl, rfl⟩
      · exact ⟨hcounted.errors, hcounted.executions⟩
    simp only [serveAll, List.countP_cons]
    omega

theorem check_of_rejectsPlan {s : State} {r : Request} (h : (serve s r).2.rejectsPlan = true) :
    ∃ plan files e, action r = .ok (.executePlan plan files) ∧ plan.check = .error e ∧
      serve s r = (s, .failed (.execution (.invalidPlan e))) := by
  rcases rejected_or_counted s r with ⟨status, hserve⟩ | ⟨a, haction, hcounted⟩
  · rw [hserve] at h
    cases h
  · generalize hserve : serve s r = served at h hcounted ⊢
    obtain ⟨s', result⟩ := served
    dsimp only at h hcounted
    cases hcounted with
    | uncounted same noError other =>
      rw [Result.carriesExecutionError_of_rejectsPlan h] at noError
      cases noError
    | rejected sent check => exact ⟨_, _, _, sent ▸ haction, check, rfl⟩
    | failed added => cases h
    | executed added outcome => cases h
    | previewed added => cases h

/-- After any requests to a fresh service, the transforms that were counted as errors and the plans
that were rejected by their check are together the answers that carried an execution error, and the
successes and fallbacks are together the executions that succeeded. -/
theorem transforms_balance (settings : Settings) (requests : List Request) :
    (respondAll (.initial settings) requests).1.transforms .error +
        (serveAll (.initial settings) requests).2.countP Result.rejectsPlan =
      (serveAll (.initial settings) requests).2.countP Result.carriesExecutionError ∧
    (respondAll (.initial settings) requests).1.transforms .success +
        (respondAll (.initial settings) requests).1.transforms .fallback =
      (serveAll (.initial settings) requests).2.countP Result.isExecuted ∧
    ∀ (s : State) (r : Request), (serve s r).2.rejectsPlan = true →
      ∃ plan files e, action r = .ok (.executePlan plan files) ∧ plan.check = .error e ∧
        serve s r = (s, .failed (.execution (.invalidPlan e))) := by
  obtain ⟨herrors, hexecutions⟩ := transforms_serveAll (.initial settings) requests
  have hzero (o : TransformOutcome) : (State.initial settings).transforms o = 0 := rfl
  rw [hzero, Nat.zero_add] at herrors
  rw [hzero, hzero, Nat.zero_add] at hexecutions
  rw [respondAll_eq_serveAll]
  exact ⟨herrors, hexecutions, fun _ _ h => check_of_rejectsPlan h⟩

def repeatedPlan : Plan := ⟨[⟨"t", "t", []⟩, ⟨"t", "again", []⟩], [], true⟩

theorem action_repeatedPlan : action (executePlanRequest repeatedPlan "a") =
    .ok (.executePlan repeatedPlan ["a"]) := by
  refine action_executePlanRequest ?_ "a"
  intro r hr op hop
  simp only [repeatedPlan, List.mem_cons, List.not_mem_nil, or_false] at hr
  rcases hr with rfl | rfl <;> cases hop

theorem serve_repeatedPlan (s : State) : serve s (executePlanRequest repeatedPlan "a") =
    (s, .failed (.execution (.invalidPlan (.duplicateId "t")))) := by
  rw [serve_of_action action_repeatedPlan]
  rfl

theorem repeatedPlan_balance :
    (serve (.initial .standard) (executePlanRequest repeatedPlan "a")).2.rejectsPlan = true ∧
      (respondAll (.initial .standard) [executePlanRequest repeatedPlan "a"]).1.transforms .error +
          (serveAll (.initial .standard) [executePlanRequest repeatedPlan "a"]).2.countP
            Result.rejectsPlan =
        (serveAll (.initial .standard) [executePlanRequest repeatedPlan "a"]).2.countP
          Result.carriesExecutionError ∧
      ∃ plan files e, action (executePlanRequest repeatedPlan "a") =
        .ok (.executePlan plan files) ∧ plan.check = .error e := by
  have hrejects : (serve (.initial .standard)
      (executePlanRequest repeatedPlan "a")).2.rejectsPlan = true := by
    rw [serve_repeatedPlan]
    rfl
  obtain ⟨herrors, -, hcheck⟩ :=
    transforms_balance .standard [executePlanRequest repeatedPlan "a"]
  obtain ⟨plan, files, e, haction, he, -⟩ := hcheck _ _ hrejects
  exact ⟨hrejects, herrors, plan, files, e, haction, he⟩

/-- The one answer carries an execution error, and none was counted. -/
theorem repeatedPlan_uncounted :
    (serveAll (.initial .standard) [executePlanRequest repeatedPlan "a"]).2.countP
        Result.carriesExecutionError = 1 ∧
      (respondAll (.initial .standard)
        [executePlanRequest repeatedPlan "a"]).1.transforms .error = 0 := by
  rw [respondAll_eq_serveAll]
  simp only [serveAll, serve_repeatedPlan]
  exact ⟨rfl, rfl⟩

end Service
end TablePlanner
