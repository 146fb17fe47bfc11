import TablePlanner.Proofs.Execution.Provenance
import TablePlanner.Proofs.Service.Effect

namespace TablePlanner

theorem Outcome.height_le_of_mem {p : Plan} {source : Table} {o : Outcome}
    (hrun : p.run source = .ok o) {e : String × Table} (he : e ∈ o.results) :
    e.2.height ≤ source.height := by
  obtain ⟨r, -, -, trace, hr⟩ := exists_of_mem_forall₂ (runRecipes_ok hrun) he
  exact height_le_of_runFrom hr

theorem Outcome.Keeps.rows {p : Plan} {source t : Table} {o : Outcome} {origin : Option String}
    (h : o.Keeps source origin t) (hrun : p.run source = .ok o) :
    (t.rows = [] ↔ source.rows = []) ∧ t.height ≤ source.height := by
  cases h with
  | source => exact ⟨Iff.rfl, Nat.le_refl _⟩
  | @result before after id t hsplit _ hrows =>
    have hmem : (id, t) ∈ o.results := by simp [hsplit]
    have hheight := Outcome.height_le_of_mem hrun hmem
    refine ⟨⟨fun hnil => absurd hnil hrows, fun hnil => ?_⟩, hheight⟩
    apply List.eq_nil_of_length_eq_zero
    simpa [Table.height, hnil] using hheight

namespace Service

/-- A recipe never makes its table longer, and without a grouping its result is made of rows of the
table, each taken once and cut to some columns. So the table that an executed prompt stores has no
more rows than its source, and none only if that has none. -/
theorem results_come_from_source :
    (∀ (t result : Table) (r : Recipe) (trace : List Diagnostic), t.WellFormed →
      r.run t = .ok (result, trace) →
      result.height ≤ t.height ∧
        ((∀ op ∈ r.operations, op.kind ≠ "GROUP_BY") → result.ComesFrom t)) ∧
    ∀ (s : State) (r : Request) (prompt file : String) (x : State.Executed),
      action r = .ok (.execute prompt file) → (serve s r).2 = .replied (.executed x) →
      ∃ source, s.registry.get? file = some source ∧
        (serve s r).1.registry.get? x.stored.name = some x.stored.table ∧
        (x.stored.table.rows = [] ↔ source.rows = []) ∧
        x.stored.table.height ≤ source.height := by
  constructor
  · intro t result r trace h hrun
    exact ⟨height_le_of_runFrom hrun, fun hkinds => comesFrom_of_runFrom h hkinds hrun⟩
  · intro s r prompt file x haction hreply
    obtain ⟨source, outcome, hfile, hrun, hstate, hstored⟩ := run_of_executed haction hreply
    obtain ⟨origin, hkeeps, -⟩ := keeps_stored file source outcome
    refine ⟨source, hfile, ?_, ?_⟩
    · rw [hstate, hstored]
      exact Registry.get?_insert_self _ _ _
    · rw [hstored]
      exact hkeeps.rows hrun

def largestInSeoul : Recipe where
  id := "largest"
  title := "Largest in Seoul"
  operations := [.filter "Region" (.string "Seoul"), .orderBy "Amount" .descending,
    .select ["Amount", "Region"], .limit 2]

open Json in
def regionAmounts : Table :=
  ⟨["Region", "Amount"], [[.string "Seoul", .int 3], [.string "Busan", .int 9],
    [.string "Seoul", .int 5], [.string "Seoul", .int 4]]⟩

open Json in
theorem largestInSeoul_comes_from_source :
    regionAmounts.WellFormed ∧
      largestInSeoul.run regionAmounts = .ok (⟨["Amount", "Region"],
        [[.int 5, .string "Seoul"], [.int 4, .string "Seoul"]]⟩, []) ∧
      (Table.mk ["Amount", "Region"]
        [[.int 5, .string "Seoul"], [.int 4, .string "Seoul"]]).ComesFrom regionAmounts ∧
      ∃ x, (serve shop (executeRequest "서울 top 5" "판매\"1")).2 = .replied (.executed x) ∧
        (x.stored.table.rows = [] ↔ [[Value.int 7, .string "Seoul"]] = []) ∧
        x.stored.table.height ≤ 1 := by
  have hwell : regionAmounts.WellFormed := by constructor <;> simp [regionAmounts]
  have hrun : largestInSeoul.run regionAmounts = .ok (⟨["Amount", "Region"],
      [[.int 5, .string "Seoul"], [.int 4, .string "Seoul"]]⟩, []) := rfl
  have hkinds : ∀ op ∈ largestInSeoul.operations, op.kind ≠ "GROUP_BY" := by decide
  have haction := action_executeRequest "서울 top 5" "판매\"1"
  have hfind : shop.find "판매\"1" = .ok ⟨["Amount\n", "지역"], [[.int 7, .string "Seoul"]]⟩ := rfl
  have hserve := serve_of_ok haction rfl (State.execute_of_success hfind rfl)
  have hcomes := (results_come_from_source.1 _ _ _ _ hwell hrun).2 hkinds
  obtain ⟨source, hfile, -, hrows⟩ :=
    results_come_from_source.2 _ _ _ _ _ haction (by rw [hserve])
  cases hfile
  exact ⟨hwell, hrun, hcomes, _, by rw [hserve], hrows⟩

end Service
end TablePlanner
