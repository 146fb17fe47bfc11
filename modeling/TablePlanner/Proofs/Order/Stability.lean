import Mathlib.Data.List.FinRange
import TablePlanner.Order.StableSort

namespace TablePlanner

theorem map_insertBackward (f : α → β) (less : β → β → Bool) (x : α) (ys : List α) :
    (insertBackward (fun a b => less (f a) (f b)) x ys).map f =
      insertBackward less (f x) (ys.map f) := by
  induction ys with
  | nil => rfl
  | cons y ys ih =>
    unfold insertBackward
    by_cases hxy : less (f x) (f y) = true
    · simp [hxy, ih]
    · simp [hxy]

theorem map_stableSort (f : α → β) (less : β → β → Bool) (xs : List α) :
    (stableSort (fun a b => less (f a) (f b)) xs).map f = stableSort less (xs.map f) := by
  have collected : ∀ xs sorted : List α,
      (xs.foldl (fun sorted x => insertBackward (fun a b => less (f a) (f b)) x sorted) sorted).map
          f =
        (xs.map f).foldl (fun sorted x => insertBackward less x sorted) (sorted.map f) := by
    intro xs
    induction xs with
    | nil => exact fun _ => rfl
    | cons x xs ih =>
      intro sorted
      rw [List.foldl_cons, ih, map_insertBackward, List.map_cons, List.foldl_cons]
  unfold stableSort
  rw [List.map_reverse, collected]
  rfl

theorem stableSort_eq_map_get (less : α → α → Bool) (xs : List α) :
    stableSort less xs =
      (stableSort (fun i j => less (xs.get i) (xs.get j)) (List.finRange xs.length)).map xs.get := by
  rw [map_stableSort, List.map_get_finRange]

section
variable {L : Type} [LinearOrder L] {place : α → L} {R : α → α → Prop} {less : α → α → Bool}

/-- How an item stands ahead of another: it has a lesser place, or the same and stood ahead. -/
def Ahead (place : α → L) (R : α → α → Prop) (a b : α) : Prop :=
  place a < place b ∨ place a = place b ∧ R a b

theorem Ahead.le {a b : α} (h : Ahead place R a b) : place a ≤ place b :=
  h.elim le_of_lt fun h => h.1.le

theorem insertBackward_ahead {x : α} {ys : List α}
    (hless : ∀ y ∈ ys, less x y = true ↔ place x < place y) (hR : ∀ y ∈ ys, R y x)
    (h : ys.Pairwise fun a b => Ahead place R b a) :
    (insertBackward less x ys).Pairwise fun a b => Ahead place R b a := by
  induction ys with
  | nil => exact List.pairwise_singleton _ _
  | cons y ys ih =>
    obtain ⟨hy, hys⟩ := List.pairwise_cons.1 h
    rw [List.forall_mem_cons] at hless hR
    unfold insertBackward
    split
    · next hxy =>
      refine List.pairwise_cons.2 ⟨?_, ih hless.2 hR.2 hys⟩
      intro z hz
      rcases List.mem_cons.1 ((insertBackward_perm less x ys).mem_iff.1 hz) with rfl | hz
      · exact .inl (hless.1.1 hxy)
      · exact hy z hz
    · next hxy =>
      -- All of `ys` is at most at the place of `y`, and `y` is not above `x`.
      have hyx : place y ≤ place x := not_lt.1 (mt hless.1.2 hxy)
      have above : ∀ z, place z ≤ place y → R z x → Ahead place R z x := by
        intro z hzy hz
        rcases lt_or_eq_of_le (hzy.trans hyx) with hlt | heq
        · exact .inl hlt
        · exact .inr ⟨heq, hz⟩
      refine List.pairwise_cons.2 ⟨?_, h⟩
      intro z hz
      rcases List.mem_cons.1 hz with rfl | hz
      · exact above z le_rfl hR.1
      · exact above z (hy z hz).le (hR.2 z hz)

/-- The law of the sort. The relation `R` is that of an earlier item to a later one. -/
theorem stableSort_ahead {xs : List α}
    (hless : ∀ a ∈ xs, ∀ b ∈ xs, less a b = true ↔ place a < place b) (h : xs.Pairwise R) :
    (stableSort less xs).Pairwise (Ahead place R) := by
  have collected : ∀ rest sorted : List α, (∀ a ∈ rest, a ∈ xs) → (∀ a ∈ sorted, a ∈ xs) →
      rest.Pairwise R → (∀ a ∈ sorted, ∀ b ∈ rest, R a b) →
      (sorted.Pairwise fun a b => Ahead place R b a) →
      (rest.foldl (fun sorted x => insertBackward less x sorted) sorted).Pairwise
        fun a b => Ahead place R b a := by
    intro rest
    induction rest with
    | nil => exact fun _ _ _ _ _ hs => hs
    | cons x rest ih =>
      intro sorted hrest hsorted hordered hbefore hs
      rw [List.forall_mem_cons] at hrest
      obtain ⟨hx, hordered⟩ := List.pairwise_cons.1 hordered
      have hmem : ∀ a ∈ insertBackward less x sorted, a = x ∨ a ∈ sorted := fun a ha =>
        List.mem_cons.1 ((insertBackward_perm less x sorted).mem_iff.1 ha)
      apply ih _ hrest.2
      · intro a ha
        rcases hmem a ha with rfl | ha
        · exact hrest.1
        · exact hsorted a ha
      · exact hordered
      · intro a ha b hb
        rcases hmem a ha with rfl | ha
        · exact hx b hb
        · exact hbefore a ha b (List.mem_cons_of_mem _ hb)
      · exact insertBackward_ahead (fun y hy => hless x hrest.1 y (hsorted y hy))
          (fun y hy => hbefore y hy x List.mem_cons_self) hs
  exact List.pairwise_reverse.2 (collected xs [] (fun _ ha => ha) (by simp) h (by simp) .nil)

end
end TablePlanner
