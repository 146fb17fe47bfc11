import TablePlanner.Proofs.Lineage.Marks
import TablePlanner.Proofs.Service.Recorded
import TablePlanner.Proofs.Service.Retry

/-! Each execution that succeeds stores its table anew, but a node stays as it was added. So where
several have one output, the stored table is that of the last and the lineage tells of the first. -/
namespace TablePlanner
open Json Lineage

namespace Service

/-- An execution that succeeded. -/
structure Execution where
  prompt : String
  file : String
  source : Table
  executed : State.Executed

namespace Execution

def output (e : Execution) : String := e.executed.stored.name

def transform (e : Execution) : String := "transform_" ++ e.output

def run (e : Execution) : Run :=
  State.lineageRun e.prompt e.file e.executed.proposal.plan.fingerprint e.source e.executed.stored

end Execution

/-- The execution that a request comes to, if it is one and succeeds. -/
def execution? (s : State) (r : Request) : Option Execution :=
  match action r, (serve s r).2 with
  | .ok (.execute prompt file), .replied (.executed x) =>
    (s.registry.get? file).map fun source => ⟨prompt, file, source, x⟩
  | _, _ => none

/-- The executions among some requests that succeed, in their order. -/
def executions (s : State) : List Request → List Execution
  | [] => []
  | r :: rs => (execution? s r).toList ++ executions (respond s r).1 rs

section
variable {s : State} {r : Request} {prompt file : String} {e : Execution}

theorem execution?_of_executed {x : State.Executed} {source : Table}
    (haction : action r = .ok (.execute prompt file))
    (hanswer : (serve s r).2 = .replied (.executed x))
    (hfile : s.registry.get? file = some source) :
    execution? s r = some ⟨prompt, file, source, x⟩ := by
  simp only [execution?, haction, hanswer, hfile, Option.map_some]

theorem executions_append (s : State) (before after : List Request) :
    executions s (before ++ after) =
      executions s before ++ executions (respondAll s before).1 after := by
  induction before generalizing s with
  | nil => rfl
  | cons r before ih =>
    simp only [List.cons_append, executions, respondAll, ih, List.append_assoc]

theorem execution?_eq_some (h : execution? s r = some e) :
    action r = .ok (.execute e.prompt e.file) ∧
      (serve s r).2 = .replied (.executed e.executed) ∧
      s.registry.get? e.file = some e.source := by
  unfold execution? at h
  split at h
  · next haction hanswer =>
    obtain ⟨source, hsource, rfl⟩ := Option.map_eq_some_iff.1 h
    exact ⟨haction, hanswer, hsource⟩
  · cases h

theorem run_of_execution (h : execution? s r = some e) : ∃ outcome,
    (s.proposal e.prompt e.source).plan.run e.source = .ok outcome ∧
      e.executed = s.executed e.prompt e.file e.source outcome ∧
      (serve s r).1 = s.afterExecute e.prompt e.file e.source outcome := by
  obtain ⟨haction, hanswer, hfile⟩ := execution?_eq_some h
  obtain ⟨source, outcome, hsource, hrun, hstate, -⟩ := run_of_executed haction hanswer
  cases hfile.symm.trans hsource
  rw [serve_of_run haction hfile hrun] at hanswer
  exact ⟨outcome, hrun, Reply.executed.inj (Result.replied.inj hanswer.symm), hstate⟩

theorem lineage_of_execution (h : execution? s r = some e) :
    (serve s r).1.lineage = s.lineage.record e.run := by
  obtain ⟨outcome, -, hexecuted, hstate⟩ := run_of_execution h
  rw [hstate, Execution.run, hexecuted]
  rfl

theorem lineage_of_no_execution (h : execution? s r = none) :
    (serve s r).1.lineage = s.lineage := by
  cases haction : action r with
  | error status => rw [serve_of_rejected haction]
  | ok a =>
    rcases act_cases s a with hsame | ⟨name, records, t, -, -, hstate⟩ |
      ⟨prompt, file, source, outcome, rfl, hfind, hrun, -⟩
    · rw [serve_of_action haction, hsame]
    · rw [serve_of_action haction, hstate]
    · have hfile := State.get?_of_find hfind
      have hanswer := congrArg Prod.snd (serve_of_run haction hfile hrun)
      rw [execution?_of_executed haction hanswer hfile] at h
      cases h

theorem lineage_respond (s : State) (r : Request) :
    (respond s r).1.lineage =
      ((execution? s r).toList.map Execution.run).foldl .record s.lineage := by
  cases h : execution? s r with
  | none => exact lineage_of_no_execution h
  | some e => exact lineage_of_execution h

theorem lineage_respondAll (s : State) (requests : List Request) :
    (respondAll s requests).1.lineage =
      ((executions s requests).map Execution.run).foldl .record s.lineage := by
  induction requests generalizing s with
  | nil => rfl
  | cons r requests ih =>
    rw [executions, List.map_append, List.foldl_append, ← lineage_respond]
    exact ih (respond s r).1

def Execution.Named (e : Execution) : Prop :=
  ∃ word ∈ outputWords, e.output = outputName word e.file

theorem named_of_execution (h : execution? s r = some e) : e.Named := by
  obtain ⟨outcome, hrun, hexecuted, -⟩ := run_of_execution h
  obtain ⟨origin, hkeeps, hname⟩ := keeps_stored e.file e.source outcome
  have hstores : Stores s e.prompt e.file origin _ _ :=
    ⟨⟨e.source, outcome, (execution?_eq_some h).2.2, hrun, hkeeps⟩, hname⟩
  refine ⟨_, hstores.word_mem, ?_⟩
  rw [Execution.output, hexecuted]
  exact hname

theorem named_of_mem {requests : List Request} (h : e ∈ executions s requests) : e.Named := by
  induction requests generalizing s with
  | nil => cases h
  | cons r requests ih =>
    rcases List.mem_append.1 h with h | h
    · exact named_of_execution (Option.mem_toList.1 h)
    · exact ih h

end

namespace Execution
variable {e other : Execution}

theorem Named.file_ne_output (h : e.Named) : e.file ≠ e.output := by
  obtain ⟨word, -, hname⟩ := h
  rw [hname]
  exact (outputName_ne _ _).symm

theorem Named.file_ne_transform (h : e.Named) : e.file ≠ e.transform := by
  obtain ⟨word, -, hname⟩ := h
  intro heq
  have hlength := congrArg String.length heq
  rw [transform, length_transform, hname, length_outputName] at hlength
  omega

theorem Named.output_ne_transform (h : e.Named) : e.output ≠ other.transform := by
  obtain ⟨word, hword, hname⟩ := h
  rw [hname]
  exact outputName_ne_transform hword _ _

theorem transform_ne (h : e.output ≠ other.output) : e.transform ≠ other.transform := by
  intro heq
  have hlists := congrArg String.toList heq
  simp only [transform, String.toList_append] at hlists
  exact h (String.toList_inj.1 (List.append_cancel_left hlists))

end Execution

/-- Whether a graph shows the output of an execution with what that execution brought: the prompt
and the plan in the node of the transform, the number of rows in that of the output. A node is of
another kind where an execution before had its name as the name of its file. -/
structure ShowsFirst (g : LineageGraph) (earlier : List Execution) (first : Execution) : Prop where
  transform : ∃ n ∈ g.nodes, n.id = first.transform ∧
    (n.kind = .transform ↔ ∀ e ∈ earlier, e.file ≠ first.transform) ∧
    (n.kind = .transform → n.metadata = [("prompt", .string first.prompt),
      ("fingerprint", .string first.executed.proposal.plan.fingerprint)])
  output : ∃ n ∈ g.nodes, n.id = first.output ∧
    (n.kind = .output ↔ ∀ e ∈ earlier, e.file ≠ first.output) ∧
    (n.kind = .output → n.metadata = [("rows", .nat first.executed.stored.table.height)])

section
variable {earlier later : List Execution} {first : Execution}

theorem node_of_first {id : String} {m : Mark} (hfirst : first.run.mark? id = some m)
    (hkind : m.kind ≠ .source) (h : ∀ e ∈ earlier, e.transform ≠ id ∧ e.output ≠ id) :
    ∃ n ∈ (LineageGraph.ofRuns ((earlier ++ first :: later).map Execution.run)).nodes,
      n.id = id ∧
      (n.kind = m.kind ↔ ∀ e ∈ earlier, e.file ≠ id) ∧
      (n.kind = m.kind → n.metadata = m.metadata) := by
  have hruns : ∀ r ∈ earlier.map Execution.run, r.transform ≠ id ∧ r.output ≠ id := by
    rw [List.forall_mem_map]
    exact h
  obtain ⟨told, htold, hfiles, hsame⟩ :=
    LineageGraph.mark?_of_first (later.map Execution.run) hfirst hkind hruns
  rw [List.forall_mem_map] at hfiles
  rw [List.map_append, List.map_cons]
  obtain ⟨n, hn, hid, rfl⟩ := LineageGraph.exists_node_of_mark? htold
  exact ⟨n, hn, hid, hfiles, fun hk => congrArg Mark.metadata (hsame hk)⟩

theorem shows_first (hnamed : ∀ e ∈ earlier ++ first :: later, e.Named)
    (hfresh : ∀ e ∈ earlier, e.output ≠ first.output) :
    ShowsFirst (.ofRuns ((earlier ++ first :: later).map Execution.run)) earlier first := by
  have hearlier : ∀ e ∈ earlier, e.Named := fun e he => hnamed e (by simp [he])
  have hfirst : first.Named := hnamed first (by simp)
  have htransform : first.run.mark? first.transform =
      some ⟨.transform, first.run.label, first.run.metadata⟩ :=
    (if_neg hfirst.file_ne_transform).trans (if_pos rfl)
  have houtput : first.run.mark? first.output =
      some ⟨.output, first.output, LineageGraph.rowsMetadata first.run.outputRows⟩ :=
    (if_neg hfirst.file_ne_output).trans <|
      (if_neg hfirst.output_ne_transform.symm).trans (if_pos rfl)
  constructor
  · exact node_of_first htransform (by simp) fun e he =>
      ⟨Execution.transform_ne (hfresh e he), (hearlier e he).output_ne_transform⟩
  · exact node_of_first houtput (by simp) fun e he =>
      ⟨hfirst.output_ne_transform.symm, hfresh e he⟩

end

section
variable {settings : Settings} {before : List Request} {r : Request}
  {prompt file : String} {x : State.Executed}

theorem lineage_eq_ofRuns (settings : Settings) (requests : List Request) :
    (respondAll (.initial settings) requests).1.lineage =
      .ofRuns ((executions (.initial settings) requests).map Execution.run) :=
  lineage_respondAll (.initial settings) requests

theorem executions_concat {e : Execution}
    (h : execution? (respondAll (.initial settings) before).1 r = some e) :
    executions (.initial settings) (before ++ [r]) =
      executions (.initial settings) before ++ [e] := by
  rw [executions_append, executions, h]
  rfl

/-- After requests that end with an execution that succeeds, the lineage shows its output with what
the first execution brought that had this output: that prompt and plan, and that number of rows.
They are those of the table that is stored if no execution before had the output. -/
theorem lineage_shows_first_execution (settings : Settings) (before : List Request)
    (haction : action r = .ok (.execute prompt file))
    (hanswer : (serve (respondAll (.initial settings) before).1 r).2 = .replied (.executed x)) :
    (respondAll (.initial settings) (before ++ [r])).1.registry.get? x.stored.name =
        some x.stored.table ∧
      (respondAll (.initial settings) (before ++ [r])).1.lineage.Sound ∧
      ∃ earlier first later,
        executions (.initial settings) (before ++ [r]) = earlier ++ first :: later ∧
        first.output = x.stored.name ∧ (∀ e ∈ earlier, e.output ≠ x.stored.name) ∧
        ShowsFirst (respondAll (.initial settings) (before ++ [r])).1.lineage earlier first ∧
        ((∀ e ∈ executions (.initial settings) before, e.output ≠ x.stored.name) →
          first.prompt = prompt ∧ first.file = file ∧ first.executed = x) := by
  obtain ⟨source, outcome, hfile, hrun, hstate, hstored⟩ := run_of_executed haction hanswer
  have hlast := executions_concat (execution?_of_executed haction hanswer hfile)
  have hsound : (respondAll (.initial settings) (before ++ [r])).1.lineage.Sound :=
    (respondAll_invariant recorded_act (recorded_initial settings) (before ++ [r])).sound
  have hkept : (respondAll (.initial settings) (before ++ [r])).1.registry.get? x.stored.name =
      some x.stored.table := by
    rw [respondAll_append]
    change (serve (respondAll (.initial settings) before).1 r).1.registry.get? _ = _
    rw [hstate, hstored]
    exact Registry.get?_insert_self _ _ _
  -- the last execution has the output, so there is a first one that has it
  obtain ⟨first, hfound⟩ : ∃ first, (executions (.initial settings) (before ++ [r])).find?
      (·.output == x.stored.name) = some first := by
    rw [← Option.isSome_iff_exists, List.find?_isSome, hlast]
    exact ⟨⟨prompt, file, source, x⟩, by simp, by simp [Execution.output]⟩
  obtain ⟨hfirst, earlier, later, hsplit, hfresh⟩ := List.find?_eq_some_iff_append.1 hfound
  have hfirst : first.output = x.stored.name := by simpa using hfirst
  have hfresh : ∀ e ∈ earlier, e.output ≠ x.stored.name := by simpa using hfresh
  have hshows : ShowsFirst (respondAll (.initial settings) (before ++ [r])).1.lineage earlier
      first := by
    rw [lineage_eq_ofRuns, hsplit]
    exact shows_first (fun e he => named_of_mem (hsplit ▸ he)) (hfirst ▸ hfresh)
  refine ⟨hkept, hsound, earlier, first, later, hsplit, hfirst, hfresh, hshows, fun hnone => ?_⟩
  have hmem : first ∈ executions (.initial settings) (before ++ [r]) := by simp [hsplit]
  rw [hlast, List.mem_append, List.mem_singleton] at hmem
  rcases hmem with hmem | rfl
  · exact absurd hfirst (hnone first hmem)
  · exact ⟨rfl, rfl, rfl⟩

end

def regionRecords : List Value :=
  ["Seoul", "Busan", "Busan"].map fun region => .object [("Region", .string region)]

def regionTable : Table := ⟨["Region"], [[.string "Seoul"], [.string "Busan"], [.string "Busan"]]⟩

def seoulRequests : List Request := [uploadRequest "a" regionRecords, executeRequest "서울" "a"]

def regionRequests : List Request := seoulRequests ++ [executeRequest "부산" "a"]

def regionState : State := { State.initial .standard with registry := ⟨[("a", regionTable)]⟩ }

theorem action_regionUpload :
    action (uploadRequest "a" regionRecords) = .ok (.upload "a" regionRecords) := by
  have hrow (region : String) : (Value.object [("Region", .string region)]).Exact 126 :=
    .object (by simp) (by simpa using Value.Exact.string region)
  have hrecords : (Value.array regionRecords).Exact Document.maxDepth := by
    refine .array fun v hv => ?_
    obtain ⟨region, -, rfl⟩ := List.mem_map.1 hv
    exact hrow region
  exact action_uploadRequest rfl rfl (by decide) hrecords

theorem respond_regionUpload :
    (respond (.initial .standard) (uploadRequest "a" regionRecords)).1 = regionState := by
  simp only [respond, serve_of_action action_regionUpload]
  rfl

def regionOutcome (rows : List (List Value)) : Outcome :=
  ⟨[("region_filter_table", ⟨["Region"], rows⟩)], []⟩

def seoulOutcome : Outcome := regionOutcome [[.string "Seoul"]]

def busanOutcome : Outcome := regionOutcome [[.string "Busan"], [.string "Busan"]]

theorem serve_seoul : serve regionState (executeRequest "서울" "a") =
    (regionState.afterExecute "서울" "a" regionTable seoulOutcome,
      .replied (.executed (regionState.executed "서울" "a" regionTable seoulOutcome))) :=
  serve_of_run (action_executeRequest _ _) rfl rfl

theorem respondAll_seoul : (respondAll (.initial .standard) seoulRequests).1 =
    regionState.afterExecute "서울" "a" regionTable seoulOutcome := by
  simp only [seoulRequests, respondAll, respond_regionUpload]
  simp only [respond, serve_seoul]

theorem get?_after_seoul : (respondAll (.initial .standard) seoulRequests).1.registry.get? "a" =
    some regionTable := by
  have hrun : (regionState.proposal "서울" regionTable).plan.run regionTable = .ok seoulOutcome :=
    rfl
  rw [respondAll_seoul]
  exact (State.settled_afterExecute (s := regionState) rfl hrun).found

theorem serve_busan : (serve (respondAll (.initial .standard) seoulRequests).1
    (executeRequest "부산" "a")).2 =
      .replied (.executed (regionState.executed "부산" "a" regionTable busanOutcome)) := by
  have hsettings : (respondAll (.initial .standard) seoulRequests).1.settings =
      regionState.settings := by
    rw [respondAll_seoul]
    rfl
  have hrun : ((respondAll (.initial .standard) seoulRequests).1.proposal "부산"
      regionTable).plan.run regionTable = .ok busanOutcome := by
    rw [State.proposal_of_settings hsettings]
    rfl
  rw [serve_of_run (action_executeRequest "부산" "a") get?_after_seoul hrun,
    State.executed_of_settings hsettings]

theorem region_lineage_shows_first_execution :
    ∃ x, (serve (respondAll (.initial .standard) seoulRequests).1
        (executeRequest "부산" "a")).2 = .replied (.executed x) ∧
      (respondAll (.initial .standard) regionRequests).1.registry.get? x.stored.name =
        some x.stored.table ∧
      ∃ earlier first later,
        executions (.initial .standard) regionRequests = earlier ++ first :: later ∧
        ShowsFirst (respondAll (.initial .standard) regionRequests).1.lineage earlier first := by
  unfold regionRequests
  obtain ⟨hkept, -, earlier, first, later, hsplit, -, -, hshows, -⟩ :=
    lineage_shows_first_execution .standard seoulRequests (action_executeRequest "부산" "a")
      serve_busan
  exact ⟨_, serve_busan, hkept, earlier, first, later, hsplit, hshows⟩

def seoulExecution : Execution :=
  ⟨"서울", "a", regionTable, regionState.executed "서울" "a" regionTable seoulOutcome⟩

def busanExecution : Execution :=
  ⟨"부산", "a", regionTable, regionState.executed "부산" "a" regionTable busanOutcome⟩

theorem executions_region :
    executions (.initial .standard) regionRequests = [seoulExecution, busanExecution] := by
  have hupload : execution? (.initial .standard) (uploadRequest "a" regionRecords) = none := by
    simp only [execution?, action_regionUpload]
  have hseoul : execution? regionState (executeRequest "서울" "a") = some seoulExecution :=
    execution?_of_executed (action_executeRequest "서울" "a") (congrArg Prod.snd serve_seoul) rfl
  have hbusan : execution? (respondAll (.initial .standard) seoulRequests).1
      (executeRequest "부산" "a") = some busanExecution :=
    execution?_of_executed (action_executeRequest "부산" "a") serve_busan get?_after_seoul
  rw [regionRequests, executions_concat hbusan, seoulRequests]
  simp only [executions, hupload, respond_regionUpload, hseoul, Option.toList_none,
    Option.toList_some, List.nil_append, List.append_nil, List.cons_append]

/-- The stored table has the two rows of the second region, while the lineage shows the prompt and
the one row of the first. -/
theorem second_region_not_shown :
    ∃ x, (serve (respondAll (.initial .standard) seoulRequests).1
        (executeRequest "부산" "a")).2 = .replied (.executed x) ∧
      x.stored.name = "region_filter_table_a" ∧ x.stored.table.height = 2 ∧
      (∃ n ∈ (respondAll (.initial .standard) regionRequests).1.lineage.nodes,
        n.id = "transform_region_filter_table_a" ∧ n.kind = .transform ∧
          n.metadata.lookup "prompt" = some (.string "서울")) ∧
      ∃ n ∈ (respondAll (.initial .standard) regionRequests).1.lineage.nodes,
        n.id = "region_filter_table_a" ∧ n.kind = .output ∧ n.metadata = [("rows", .nat 1)] := by
  have hnamed : ∀ e ∈ executions (.initial .standard) regionRequests, e.Named :=
    fun e he => named_of_mem he
  rw [executions_region] at hnamed
  have hshows : ShowsFirst (respondAll (.initial .standard) regionRequests).1.lineage []
      seoulExecution := by
    rw [lineage_eq_ofRuns, executions_region]
    exact @shows_first [] [busanExecution] seoulExecution hnamed (by simp)
  have houtput : seoulExecution.output = "region_filter_table_a" := rfl
  obtain ⟨transform, htransform, hid, hkind, hshown⟩ := hshows.transform
  obtain ⟨output, hmem, hid', hkind', hshown'⟩ := hshows.output
  have hfirst : transform.kind = .transform := hkind.2 (by simp)
  have hsecond : output.kind = .output := hkind'.2 (by simp)
  have hprompt : transform.metadata.lookup "prompt" = some (.string "서울") := by
    rw [hshown hfirst]
    exact List.lookup_cons_self
  have hrows : seoulExecution.executed.stored.table.height = 1 := rfl
  refine ⟨busanExecution.executed, serve_busan, rfl, rfl,
    ⟨transform, htransform, ?_, hfirst, hprompt⟩, output, hmem, ?_, hsecond, ?_⟩
  · rw [hid, Execution.transform, houtput]
    rfl
  · rw [hid', houtput]
  · rw [hshown' hsecond, hrows]

end Service
end TablePlanner
