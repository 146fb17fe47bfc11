import TablePlanner.Proofs.Service.HandOff
import TablePlanner.Proofs.Service.OutputNames

namespace TablePlanner

/-- The table that an execution keeps and its identifier: the first result with rows, or the source
itself if no result has any. -/
inductive Outcome.Keeps (o : Outcome) (source : Table) : Option String → Table → Prop
  | result {before after : List (String × Table)} {id : String} {t : Table}
    (split : o.results = before ++ (id, t) :: after) (earlier : ∀ e ∈ before, e.2.rows = [])
    (rows : t.rows ≠ []) : Keeps o source (some id) t
  | source (empty : ∀ e ∈ o.results, e.2.rows = []) : Keeps o source none source

namespace Service
open Prompt

theorem keeps_stored (file : String) (source : Table) (o : Outcome) :
    ∃ origin, o.Keeps source origin (State.stored file source o).table ∧
      (State.stored file source o).name = outputName (origin.getD "smart") file := by
  unfold State.stored
  cases hfirst : o.firstNonEmpty? with
  | some e =>
    obtain ⟨hrows, before, after, hsplit, hbefore⟩ := List.find?_eq_some_iff_append.1 hfirst
    refine ⟨some e.1, .result hsplit ?_ ?_, rfl⟩
    · simpa [Table.isEmpty] using hbefore
    · simpa [Table.isEmpty] using hrows
  | none =>
    have hempty := List.find?_eq_none.1 hfirst
    exact ⟨none, .source (by simpa [Table.isEmpty] using hempty), rfl⟩

/-- The execution of a prompt keeps a table under a name. -/
structure Stores (s : State) (prompt file : String) (origin : Option String) (name : String)
    (table : Table) : Prop where
  run : ∃ source outcome, s.registry.get? file = some source ∧
    (s.proposal prompt source).plan.run source = .ok outcome ∧ outcome.Keeps source origin table
  name_eq : name = outputName (origin.getD "smart") file

section
variable {s s' : State} {prompt prompt' file file' name : String} {origin origin' : Option String}
  {t t' : Table}

theorem Stores.origin_eq_none_or_mem (h : Stores s prompt file origin name t) :
    origin = none ∨ ∃ id ∈ defaultRecipeId :: recipeIds, origin = some id := by
  obtain ⟨source, outcome, -, hrun, hkeeps⟩ := h.run
  cases hkeeps with
  | source => exact .inl rfl
  | @result before after id t hsplit =>
    have hid : id ∈ outcome.results.map (·.1) := by simp [hsplit]
    rw [Plan.ids_of_run hrun] at hid
    obtain ⟨r, hr, rfl⟩ := List.mem_map.1 hid
    exact .inr ⟨r.id, Planner.id_of_propose rfl hr, rfl⟩

theorem Stores.word_mem (h : Stores s prompt file origin name t) :
    origin.getD "smart" ∈ outputWords := by
  rcases h.origin_eq_none_or_mem with rfl | ⟨id, hid, rfl⟩
  · exact List.mem_cons_self
  · exact List.mem_cons_of_mem _ hid

/-- No recipe has the word of a source that is stored again, so the word tells the origin. -/
theorem Stores.origin_eq (h : Stores s prompt file origin name t)
    (h' : Stores s' prompt' file' origin' name t')
    (hword : origin.getD "smart" = origin'.getD "smart") : origin = origin' := by
  have hsmart : "smart" ∉ defaultRecipeId :: recipeIds := by decide
  rcases h.origin_eq_none_or_mem with rfl | ⟨id, hid, rfl⟩ <;>
    rcases h'.origin_eq_none_or_mem with rfl | ⟨id', hid', rfl⟩
  · rfl
  · cases (show "smart" = id' from hword)
    exact absurd hid' hsmart
  · cases (show id = "smart" from hword)
    exact absurd hid hsmart
  · exact congrArg some hword

theorem Stores.unique_name (h : Stores s prompt file origin name t)
    (h' : Stores s' prompt' file' origin' name t') : origin = origin' ∧ file = file' := by
  obtain ⟨hword, hfile⟩ := outputName_inj h.word_mem h'.word_mem (h.name_eq.symm.trans h'.name_eq)
  exact ⟨h.origin_eq h' hword, hfile⟩

end

/-- How a request to execute a prompt may end. -/
inductive ExecuteEffect (s : State) (prompt file : String) : State × Result → Prop
  | missing {s' : State} {e : ServiceError} (absent : s.registry.get? file = none)
    (status : e.status = 404) (registry : s'.registry = s.registry)
    (lineage : s'.lineage = s.lineage) : ExecuteEffect s prompt file (s', .failed e)
  | failed {s' : State} {source : Table} {e : ExecutionError}
    (found : s.registry.get? file = some source)
    (run : (s.proposal prompt source).plan.run source = .error e)
    (status : (ServiceError.execution e).status = 400) (registry : s'.registry = s.registry)
    (lineage : s'.lineage = s.lineage) : ExecuteEffect s prompt file (s', .failed (.execution e))
  | stored {s' : State} {x : State.Executed} {origin : Option String}
    (stores : Stores s prompt file origin x.stored.name x.stored.table)
    (fresh : x.stored.name ≠ file) (kept : s'.registry.get? x.stored.name = some x.stored.table)
    (others : ∀ other, other ≠ x.stored.name → s'.registry.get? other = s.registry.get? other) :
    ExecuteEffect s prompt file (s', .replied (.executed x))

section
variable {s : State} {r : Request} {prompt file : String}

theorem serve_execute_cases (haction : action r = .ok (.execute prompt file)) :
    (s.registry.get? file = none ∧
      serve s r = (s, .failed (.notFound (.tableNotFound file)))) ∨
    (∃ source e, s.registry.get? file = some source ∧
      (s.proposal prompt source).plan.run source = .error e ∧
      serve s r = ((s.countProposal (s.proposal prompt source)).countTransform .error,
        .failed (.execution e))) ∨
    ∃ source outcome preview, s.registry.get? file = some source ∧
      (s.proposal prompt source).plan.run source = .ok outcome ∧
      serve s r = (s.afterExecute prompt file source outcome,
        .replied (.executed ⟨s.proposal prompt source, State.stored file source outcome, preview,
          outcome.trace⟩)) := by
  cases hfile : s.registry.get? file with
  | none =>
    have hfind : s.find file = .error (.notFound (.tableNotFound file)) := by
      simp only [State.find, Registry.get, hfile]
    exact .inl ⟨rfl, serve_of_error haction rfl (State.execute_of_missing hfind prompt)⟩
  | some source =>
    have hfind := State.find_of_get? hfile
    cases hrun : (s.proposal prompt source).plan.run source with
    | error e =>
      have hserve := serve_of_error haction rfl (State.execute_of_failure hfind hrun)
      exact .inr (.inl ⟨source, e, rfl, hrun, hserve⟩)
    | ok outcome =>
      have hserve := serve_of_ok haction rfl (State.execute_of_success hfind hrun)
      exact .inr (.inr ⟨source, outcome, _, rfl, hrun, hserve⟩)

theorem executeEffect_of_action (haction : action r = .ok (.execute prompt file)) :
    ExecuteEffect s prompt file (serve s r) := by
  rcases serve_execute_cases haction with ⟨hfile, hserve⟩ | ⟨source, e, hfile, hrun, hserve⟩ |
    ⟨source, outcome, preview, hfile, hrun, hserve⟩
  · rw [hserve]
    exact .missing hfile rfl rfl rfl
  · rw [hserve]
    exact .failed hfile hrun rfl rfl rfl
  · rw [hserve]
    obtain ⟨origin, hkeeps, hname⟩ := keeps_stored file source outcome
    refine .stored ⟨⟨source, outcome, hfile, hrun, hkeeps⟩, hname⟩ ?_ ?_ ?_
    · rw [hname]
      exact outputName_ne _ _
    · exact Registry.get?_insert_self _ _ _
    · exact fun other hother => Registry.get?_insert_of_ne _ hother _

theorem run_of_executed {x : State.Executed} (haction : action r = .ok (.execute prompt file))
    (h : (serve s r).2 = .replied (.executed x)) :
    ∃ source outcome, s.registry.get? file = some source ∧
      (s.proposal prompt source).plan.run source = .ok outcome ∧
      (serve s r).1 = s.afterExecute prompt file source outcome ∧
      x.stored = State.stored file source outcome := by
  rcases serve_execute_cases haction with ⟨-, hserve⟩ | ⟨_, _, -, -, hserve⟩ |
    ⟨source, outcome, preview, hfile, hrun, hserve⟩
  · rw [hserve] at h
    cases h
  · rw [hserve] at h
    cases h
  · rw [hserve] at h ⊢
    cases h
    exact ⟨source, outcome, hfile, hrun, rfl, rfl⟩

end

/-- A request to execute a prompt ends in an error that changed no table and no lineage, or it
stored the first result that has rows, or the source, under a name of its own and changed no other
name; and a name tells the identifier of what was kept and the name of the source. -/
theorem execute_all_or_nothing :
    (∀ (s : State) (r : Request) (prompt file : String), action r = .ok (.execute prompt file) →
      ExecuteEffect s prompt file (serve s r)) ∧
    ∀ (s s' : State) (prompt prompt' file file' name : String) (origin origin' : Option String)
      (t t' : Table), Stores s prompt file origin name t → Stores s' prompt' file' origin' name t' →
      origin = origin' ∧ file = file' :=
  ⟨fun _ _ _ _ haction => executeEffect_of_action haction,
    fun _ _ _ _ _ _ _ _ _ _ _ h h' => h.unique_name h'⟩

theorem shop_execute_all_or_nothing :
    ExecuteEffect shop "서울 top 5" "판매\"1" (serve shop (executeRequest "서울 top 5" "판매\"1")) ∧
      Stores shop "서울 top 5" "판매\"1" (some "top_amount_table") "top_amount_table_판매\"1"
        ⟨["Amount\n", "지역"], [[.int 7, .string "Seoul"]]⟩ ∧
      ∀ (s : State) (prompt file : String) (origin : Option String) (t : Table),
        Stores s prompt file origin "top_amount_table_판매\"1" t →
          some "top_amount_table" = origin ∧ "판매\"1" = file := by
  have hstores : Stores shop "서울 top 5" "판매\"1" (some "top_amount_table")
      "top_amount_table_판매\"1" ⟨["Amount\n", "지역"], [[.int 7, .string "Seoul"]]⟩ := by
    refine ⟨⟨_, _, rfl, rfl, ?_⟩, rfl⟩
    exact @Outcome.Keeps.result _ _ [] _ _ _ rfl (by simp) (by simp)
  refine ⟨execute_all_or_nothing.1 _ _ _ _ (action_executeRequest _ _), hstores, ?_⟩
  intro s prompt file origin t h
  exact execute_all_or_nothing.2 _ _ _ _ _ _ _ _ _ _ _ hstores h

end Service
end TablePlanner
