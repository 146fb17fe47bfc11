import TablePlanner.Proofs.Json.Members
import TablePlanner.Proofs.Service.Step
import TablePlanner.Proofs.Table.Access

namespace TablePlanner

namespace Registry

theorem mem_insert {r : Registry} {name : String} {t : Table} {e : String × Table}
    (h : e ∈ (r.insert name t).entries) : e = (name, t) ∨ e ∈ r.entries :=
  Json.mem_putMember h

end Registry

namespace State

theorem mem_of_find {s : State} {name : String} {t : Table} (h : s.find name = .ok t) :
    (name, t) ∈ s.registry.entries := by
  obtain ⟨before, after, hentries, -⟩ := List.lookup_eq_some_iff.1 (get?_of_find h)
  simp [hentries]

end State

namespace Service

def AllObtainable (s : State) : Prop := ∀ e ∈ s.registry.entries, e.2.Obtainable

theorem obtainable_stored {file : String} {source : Table} {p : Plan} {o : Outcome}
    (h : source.Obtainable) (ho : p.run source = .ok o) :
    (State.stored file source o).table.Obtainable := by
  unfold State.stored
  split
  · next id result hfirst => exact .result h ho (List.mem_of_find?_eq_some hfirst)
  · exact h

theorem allObtainable_act (s : State) (a : Action) (h : AllObtainable s) :
    AllObtainable (act s a).1 := by
  rcases act_cases s a with hsame | ⟨name, records, t, _, ht, hstate⟩ |
    ⟨prompt, file, source, o, _, hfind, ho, hstate⟩
  · rw [hsame]
    exact h
  · rw [hstate]
    intro e he
    rcases Registry.mem_insert he with rfl | he
    · exact .ofRecords ht
    · exact h e he
  · rw [hstate]
    intro e he
    rcases Registry.mem_insert he with rfl | he
    · exact obtainable_stored (h _ (State.mem_of_find hfind)) ho
    · exact h e he

theorem allObtainable_respondAll (settings : Settings) (requests : List Request) :
    AllObtainable (respondAll (.initial settings) requests).1 :=
  respondAll_invariant allObtainable_act (fun _ he => absurd he List.not_mem_nil) requests

end Service

/-- Every obtainable table is well formed, and running any operation or plan on it or previewing it
with every access checked comes to the same as doing so unchecked; every table that is stored after
any requests is obtainable. -/
theorem obtainable_tables_wellFormed :
    (∀ t : Table, t.Obtainable →
      t.WellFormed ∧
      (∀ op : Operation, (op.applyChecked t).run = some (op.apply t)) ∧
      (∀ p : Plan, (p.runChecked t).run = some (p.run t)) ∧
      ∀ rules : Preview.Rules, t.previewChecked rules = some (t.preview rules)) ∧
    ∀ (settings : Settings) (requests : List Service.Request),
      ∀ e ∈ (Service.respondAll (.initial settings) requests).1.registry.entries,
        e.2.Obtainable ∧ e.2.WellFormed := by
  constructor
  · intro t ht
    have h := ht.wellFormed
    exact ⟨h, h.applyChecked_eq, h.runChecked_eq, h.previewChecked_eq⟩
  · intro settings requests e he
    have ht := Service.allObtainable_respondAll settings requests e he
    exact ⟨ht, ht.wellFormed⟩

open Json in
theorem two_records_obtainable_wellFormed :
    Table.Obtainable ⟨["Region", "Amount"], [[.string "Seoul", .null], [.null, .int 4]]⟩ ∧
      Table.WellFormed ⟨["Region", "Amount"], [[.string "Seoul", .null], [.null, .int 4]]⟩ := by
  have h : Table.Obtainable ⟨["Region", "Amount"], [[.string "Seoul", .null], [.null, .int 4]]⟩ :=
    @Table.Obtainable.ofRecords
      [.object [("Region", .string "Seoul")], .object [("Amount", .int 4)]] _ rfl
  exact ⟨h, (obtainable_tables_wellFormed.1 _ h).1⟩

end TablePlanner
