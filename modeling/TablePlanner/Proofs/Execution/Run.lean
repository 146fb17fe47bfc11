import Mathlib.Data.List.Forall2
import TablePlanner.Execution.Run

namespace TablePlanner

theorem exists_of_bind_ok {x : Except ε α} {f : α → Except ε β} {b : β}
    (h : (x >>= f) = .ok b) : ∃ a, x = .ok a ∧ f a = .ok b := by
  cases x with
  | error e => cases h
  | ok a => exact ⟨a, rfl, h⟩

theorem error_of_bind_error {x : Except ε α} {f : α → Except ε β} {e : ε}
    (h : (x >>= f) = .error e) : x = .error e ∨ ∃ a, x = .ok a ∧ f a = .error e := by
  cases x with
  | error e' =>
    cases h
    exact .inl rfl
  | ok a => exact .inr ⟨a, rfl, h⟩

theorem forall₂_of_mapM_ok {f : α → Except ε β} {xs : List α} {ys : List β}
    (h : xs.mapM f = .ok ys) : List.Forall₂ (fun x y => f x = .ok y) xs ys := by
  induction xs generalizing ys with
  | nil => cases h; exact .nil
  | cons x xs ih =>
    rw [List.mapM_cons] at h
    obtain ⟨y, hy, h⟩ := exists_of_bind_ok h
    obtain ⟨rest, hrest, h⟩ := exists_of_bind_ok h
    cases h
    exact .cons hy (ih hrest)

theorem exists_of_mem_forall₂ {R : α → β → Prop} {xs : List α} {ys : List β}
    (h : List.Forall₂ R xs ys) {y : β} (hy : y ∈ ys) : ∃ x ∈ xs, R x y := by
  induction h with
  | nil => cases hy
  | @cons x z xs ys hxz _ ih =>
    rcases List.mem_cons.1 hy with rfl | hy
    · exact ⟨x, by simp, hxz⟩
    · obtain ⟨w, hw, hwy⟩ := ih hy
      exact ⟨w, List.mem_cons_of_mem _ hw, hwy⟩

theorem runFrom_cons_ok {id : String} {index : Nat} {t result : Table} {op : Operation}
    {ops : List Operation} {trace : List Diagnostic}
    (h : runFrom id index t (op :: ops) = .ok (result, trace)) :
    ∃ u notes rest, op.apply t = .ok (u, notes) ∧
      runFrom id (index + 1) u ops = .ok (result, rest) ∧
      trace = notes.map (⟨id, index, op.kind, ·⟩) ++ rest := by
  unfold runFrom at h
  split at h
  · cases h
  · next u notes happly =>
    obtain ⟨⟨finished, rest⟩, hrest, h⟩ := exists_of_bind_ok h
    cases h
    exact ⟨u, notes, rest, happly, hrest, rfl⟩

theorem runRecipes_ok {source : Table} {recipes : List Recipe} {o : Outcome}
    (h : runRecipes source recipes = .ok o) :
    List.Forall₂
      (fun r (e : String × Table) => e.1 = r.id ∧ ∃ trace, r.run source = .ok (e.2, trace))
      recipes o.results := by
  induction recipes generalizing o with
  | nil => cases h; exact .nil
  | cons r recipes ih =>
    unfold runRecipes at h
    obtain ⟨⟨result, trace⟩, hr, h⟩ := exists_of_bind_ok h
    obtain ⟨rest, hrest, h⟩ := exists_of_bind_ok h
    cases h
    exact .cons ⟨rfl, trace, hr⟩ (ih hrest)

theorem mem_trace_of_runRecipes {source : Table} {recipes : List Recipe} {o : Outcome}
    (h : runRecipes source recipes = .ok o) {d : Diagnostic} :
    d ∈ o.trace ↔ ∃ r ∈ recipes, ∃ result trace, r.run source = .ok (result, trace) ∧ d ∈ trace := by
  induction recipes generalizing o with
  | nil =>
    cases h
    simp
  | cons r recipes ih =>
    unfold runRecipes at h
    obtain ⟨⟨result, trace⟩, hr, h⟩ := exists_of_bind_ok h
    obtain ⟨rest, hrest, h⟩ := exists_of_bind_ok h
    cases h
    simp [ih hrest, hr]

theorem nonNumeric_of_runFrom {id : String} {index : Nat} {t : Table} {ops : List Operation}
    {e : ExecutionError} (h : runFrom id index t ops = .error e) :
    ∃ cell, e = .nonNumeric id cell := by
  induction ops generalizing index t with
  | nil => cases h
  | cons op ops ih =>
    unfold runFrom at h
    split at h
    · next cell _ =>
      cases h
      exact ⟨cell, rfl⟩
    · rcases error_of_bind_error h with hrest | ⟨_, -, h⟩
      · exact ih hrest
      · cases h

theorem nonNumeric_of_runRecipes {source : Table} {recipes : List Recipe} {e : ExecutionError}
    (h : runRecipes source recipes = .error e) : ∃ r ∈ recipes, ∃ cell, e = .nonNumeric r.id cell := by
  induction recipes with
  | nil => cases h
  | cons r recipes ih =>
    unfold runRecipes at h
    rcases error_of_bind_error h with hr | ⟨_, -, h⟩
    · exact ⟨r, List.mem_cons_self, nonNumeric_of_runFrom hr⟩
    · rcases error_of_bind_error h with hrest | ⟨_, -, h⟩
      · obtain ⟨other, hother, hcell⟩ := ih hrest
        exact ⟨other, List.mem_cons_of_mem _ hother, hcell⟩
      · cases h

theorem Plan.ids_of_run {p : Plan} {source : Table} {o : Outcome} (h : p.run source = .ok o) :
    o.results.map (·.1) = p.ids := by
  have hown := runRecipes_ok h
  unfold ids
  generalize p.recipes = recipes, o.results = results at hown ⊢
  induction hown with
  | nil => rfl
  | cons hr _ ih => simp [hr.1, ih]

end TablePlanner
