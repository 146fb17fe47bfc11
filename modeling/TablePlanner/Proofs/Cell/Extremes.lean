import Mathlib.Data.List.Induction
import TablePlanner.Proofs.Cell.Place

namespace TablePlanner
open Json

section
variable (keeps : α → α → Prop) [DecidableRel keeps]

/-- What a pass over some items keeps, if it keeps an item until one comes that it does not keep it
before. Items ahead of the kept one were given up for it, and it was kept before all behind it. -/
theorem foldl_keep_split (first : α) (rest : List α)
    (htrans : ∀ x ∈ first :: rest, ∀ m ∈ first :: rest, ∀ w ∈ first :: rest,
      ¬ keeps m w → (x = m ∨ keeps m x ∨ ¬ keeps x m) → ¬ keeps x w) :
    ∃ before kept after, first :: rest = before ++ kept :: after ∧
      rest.foldl (fun m v => if keeps m v then m else v) first = kept ∧
      (∀ w ∈ before, ¬ keeps w kept) ∧ ∀ w ∈ after, keeps kept w := by
  induction rest using List.reverseRecOn with
  | nil => exact ⟨[], first, [], rfl, rfl, by simp, by simp⟩
  | append_singleton rest last ih =>
    have hsub : ∀ x ∈ first :: rest, x ∈ first :: (rest ++ [last]) := by
      intro x hx
      rw [← List.cons_append]
      exact List.mem_append_left _ hx
    obtain ⟨before, kept, after, hsplit, hkept, hbefore, hafter⟩ :=
      ih fun x hx m hm w hw => htrans x (hsub x hx) m (hsub m hm) w (hsub w hw)
    rw [List.foldl_append, hkept, ← List.cons_append, hsplit]
    -- The last item is left behind the kept one, or it is kept and all others are given up for it.
    by_cases hlast : keeps kept last
    · refine ⟨before, kept, after ++ [last], by simp, if_pos hlast, hbefore, ?_⟩
      intro w hw
      rcases List.mem_append.1 hw with hw | hw
      · exact hafter w hw
      · rwa [List.mem_singleton.1 hw]
    · refine ⟨before ++ kept :: after, last, [], by simp, if_neg hlast, ?_, by simp⟩
      have hmem : ∀ x ∈ before ++ kept :: after, x ∈ first :: (rest ++ [last]) := by
        intro x hx
        rw [← hsplit] at hx
        exact hsub x hx
      intro x hx
      refine htrans x (hmem x hx) kept (hmem kept (by simp)) last (by simp) hlast ?_
      rcases List.mem_append.1 hx with hx | hx
      · exact .inr (.inr (hbefore x hx))
      · rcases List.mem_cons.1 hx with rfl | hx
        · exact .inl rfl
        · exact .inr (.inl (hafter x hx))

end

namespace Cell

/-- A cell among some that is less than those ahead of it and at most those behind it. -/
def IsFirstLeast (cells : List Value) (v : Value) : Prop :=
  ∃ before after, cells = before ++ v :: after ∧
    (∀ w ∈ before, order v w = .lt) ∧ ∀ w ∈ after, order v w ≠ .gt

/-- A cell among some that is at least those ahead of it and greater than those behind it. -/
def IsLastGreatest (cells : List Value) (v : Value) : Prop :=
  ∃ before after, cells = before ++ v :: after ∧
    (∀ w ∈ before, order v w ≠ .lt) ∧ ∀ w ∈ after, order v w = .gt

variable {cells : List Value} {v : Value}

theorem least?_eq_none_iff : least? cells = none ↔ cells = [] := by
  cases cells <;> simp [least?]

theorem greatest?_eq_none_iff : greatest? cells = none ↔ cells = [] := by
  cases cells <;> simp [greatest?]

theorem Unmixed.mono {more : List Value} (h : Unmixed more) (hsub : ∀ v ∈ cells, v ∈ more) :
    Unmixed cells :=
  fun x n hx hn => h x n (hsub _ hx) (hsub _ hn)

theorem Unmixed.isFirstLeast (hcells : Unmixed cells) (h : least? cells = some v) :
    IsFirstLeast cells v := by
  cases cells with
  | nil => cases h
  | cons first rest =>
    have hkeeps : ∀ a ∈ first :: rest, ∀ b ∈ first :: rest,
        order a b ≠ .gt ↔ place a ≤ place b := by
      intro a ha b hb
      rw [hcells.order_eq ha hb]
      exact compare_le_iff_le
    obtain ⟨before, kept, after, hsplit, hkept, hbefore, hafter⟩ :=
      foldl_keep_split (fun a b => order a b ≠ .gt) first rest (by
        intro x hx m hm w hw hgiven hahead
        rw [hkeeps m hm w hw, not_le] at hgiven
        rw [hkeeps m hm x hx, hkeeps x hx m hm, not_le] at hahead
        rw [hkeeps x hx w hw, not_le]
        rcases hahead with rfl | hle | hlt
        · exact hgiven
        · exact hgiven.trans_le hle
        · exact hgiven.trans hlt)
    have hleast : kept = v := by
      simp only [ite_not] at hkept
      rw [← hkept]
      exact Option.some.inj h
    rw [← hleast]
    refine ⟨before, after, hsplit, ?_, hafter⟩
    intro w hw
    rw [← order_swap w kept, Ordering.swap_eq_lt]
    exact not_not.1 (hbefore w hw)

theorem Unmixed.isLastGreatest (hcells : Unmixed cells) (h : greatest? cells = some v) :
    IsLastGreatest cells v := by
  cases cells with
  | nil => cases h
  | cons first rest =>
    have hkeeps : ∀ a ∈ first :: rest, ∀ b ∈ first :: rest,
        order a b = .gt ↔ place b < place a := by
      intro a ha b hb
      rw [hcells.order_eq ha hb]
      exact compare_gt_iff_gt
    obtain ⟨before, kept, after, hsplit, hkept, hbefore, hafter⟩ :=
      foldl_keep_split (fun a b => order a b = .gt) first rest (by
        intro x hx m hm w hw hgiven hahead
        rw [hkeeps m hm w hw, not_lt] at hgiven
        rw [hkeeps m hm x hx, hkeeps x hx m hm, not_lt] at hahead
        rw [hkeeps x hx w hw, not_lt]
        rcases hahead with rfl | hlt | hle
        · exact hgiven
        · exact hlt.le.trans hgiven
        · exact hle.trans hgiven)
    have hgreatest : kept = v := hkept.symm.trans (Option.some.inj h)
    rw [← hgreatest]
    refine ⟨before, after, hsplit, ?_, hafter⟩
    intro w hw hlt
    rw [← order_swap w kept, Ordering.swap_eq_lt] at hlt
    exact hbefore w hw hlt

theorem Unmixed.nil_or_isFirstLeast (hcells : Unmixed cells) :
    cells = [] ∧ (least? cells).getD .null = .null ∨
      IsFirstLeast cells ((least? cells).getD .null) := by
  cases hleast : least? cells with
  | none => exact .inl ⟨least?_eq_none_iff.1 hleast, rfl⟩
  | some v => exact .inr (hcells.isFirstLeast hleast)

theorem Unmixed.nil_or_isLastGreatest (hcells : Unmixed cells) :
    cells = [] ∧ (greatest? cells).getD .null = .null ∨
      IsLastGreatest cells ((greatest? cells).getD .null) := by
  cases hgreatest : greatest? cells with
  | none => exact .inl ⟨greatest?_eq_none_iff.1 hgreatest, rfl⟩
  | some v => exact .inr (hcells.isLastGreatest hgreatest)

end Cell
end TablePlanner
