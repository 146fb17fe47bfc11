namespace TablePlanner

/-- Puts an item into a list that is sorted backwards. -/
def insertBackward (less : α → α → Bool) (x : α) : List α → List α
  | [] => [x]
  | y :: ys => if less x y then y :: insertBackward less x ys else x :: y :: ys

def stableSort (less : α → α → Bool) (xs : List α) : List α :=
  (xs.foldl (fun sorted x => insertBackward less x sorted) []).reverse

theorem insertBackward_perm (less : α → α → Bool) (x : α) (ys : List α) :
    (insertBackward less x ys).Perm (x :: ys) := by
  induction ys with
  | nil => exact .refl _
  | cons y ys ih =>
    unfold insertBackward
    split
    · exact (ih.cons y).trans (.swap x y ys)
    · exact .refl _

theorem stableSort_perm (less : α → α → Bool) (xs : List α) : (stableSort less xs).Perm xs := by
  have collected : ∀ (xs sorted : List α),
      (xs.foldl (fun sorted x => insertBackward less x sorted) sorted).Perm (xs ++ sorted) := by
    intro xs
    induction xs with
    | nil => exact fun _ => .refl _
    | cons x xs ih =>
      intro sorted
      refine (ih _).trans (((insertBackward_perm less x sorted).append_left xs).trans ?_)
      exact List.perm_middle
  have h := collected xs []
  rw [List.append_nil] at h
  exact (List.reverse_perm _).trans h

end TablePlanner
