import TablePlanner.Proofs.Cell.Place
import TablePlanner.Proofs.Table.WellFormed

/-! The rows of a group compare equal to its key, whatever the cells are. Where the keys compare by
levels of a linear order, there is one group for each level, and it has all rows of the level. -/
namespace TablePlanner.Grouping

/-- The groups of rows whose keys have levels. -/
structure Collected {L : Type} [LinearOrder L] (level : Key → L) (keys : List Nat)
    (rows : List Row) (groups : List Group) : Prop where
  drawn : ∀ g ∈ groups, g.DrawnFrom keys rows
  ascending : groups.Pairwise fun g h => level g.key < level h.key
  complete : ∀ g ∈ groups,
    g.rows = rows.filter fun row => level (Table.pickCells keys row) = level g.key
  covered : ∀ row ∈ rows, ∃ g ∈ groups, level g.key = level (Table.pickCells keys row)

section
variable {L : Type} [LinearOrder L] {level : Key → L} {keys : List Nat} {rows : List Row}
  {groups : List Group} {key : Key} {row : Row}

/-- Where a row goes: into the group of its level, or between the lower and the higher groups. -/
theorem addRow_cases (row : Row) (h : groups.Pairwise fun g h => level g.key < level h.key)
    (hkey : ∀ g ∈ groups, keyOrder key g.key = compare (level key) (level g.key)) :
    ∃ before found after g, groups = before ++ (found ++ after) ∧
      addRow key row groups = before ++ g :: after ∧
      (∀ x ∈ before, level x.key < level key) ∧ (∀ x ∈ after, level key < level x.key) ∧
      ((found = [] ∧ g = ⟨key, [row]⟩) ∨
        ∃ old, found = [old] ∧ level old.key = level key ∧
          g = { old with rows := old.rows ++ [row] }) := by
  induction groups with
  | nil => exact ⟨[], [], [], _, rfl, rfl, by simp, by simp, .inl ⟨rfl, rfl⟩⟩
  | cons g groups ih =>
    obtain ⟨hg, hgroups⟩ := List.pairwise_cons.1 h
    rw [List.forall_mem_cons] at hkey
    unfold addRow
    split
    · next hlt =>
      have hlevel : level key < level g.key := compare_lt_iff_lt.1 (hkey.1.symm.trans hlt)
      refine ⟨[], [], g :: groups, _, rfl, rfl, by simp, ?_, .inl ⟨rfl, rfl⟩⟩
      exact List.forall_mem_cons.2 ⟨hlevel, fun x hx => hlevel.trans (hg x hx)⟩
    · next heq =>
      have hlevel : level key = level g.key := compare_eq_iff_eq.1 (hkey.1.symm.trans heq)
      refine ⟨[], [g], groups, _, rfl, rfl, by simp, ?_, .inr ⟨g, rfl, hlevel.symm, rfl⟩⟩
      rw [hlevel]
      exact hg
    · next hgt =>
      have hlevel : level g.key < level key := compare_gt_iff_gt.1 (hkey.1.symm.trans hgt)
      obtain ⟨before, found, after, new, hold, hnew, hbefore, hafter, hfound⟩ := ih hgroups hkey.2
      refine ⟨g :: before, found, after, new, ?_, ?_, ?_, hafter, hfound⟩
      · rw [hold]
        rfl
      · rw [hnew]
        rfl
      · exact List.forall_mem_cons.2 ⟨hlevel, hbefore⟩

theorem Group.DrawnFrom.mono {g : Group} {more : List Row} (h : g.DrawnFrom keys rows)
    (hsub : ∀ r ∈ rows, r ∈ more) : g.DrawnFrom keys more :=
  ⟨h.1, fun r hr => hsub r (h.2 r hr)⟩

theorem Collected.no_rows (h : Collected level keys rows groups) {l : L}
    (hl : ∀ g ∈ groups, level g.key ≠ l) :
    (rows.filter fun r => level (Table.pickCells keys r) = l) = [] := by
  rw [List.filter_eq_nil_iff]
  intro r hr heq
  obtain ⟨g, hg, hlevel⟩ := h.covered r hr
  exact hl g hg (hlevel.trans (of_decide_eq_true heq))

theorem Collected.complete_concat (h : Collected level keys rows groups) {g : Group}
    (hg : g ∈ groups) (hne : level g.key ≠ level (Table.pickCells keys row)) :
    g.rows = (rows ++ [row]).filter fun r => level (Table.pickCells keys r) = level g.key := by
  rw [List.filter_append, ← h.complete g hg]
  simp [hne.symm]

theorem pairwise_of_between {before found after : List Group} {g : Group}
    (h : (before ++ (found ++ after)).Pairwise fun g h => level g.key < level h.key)
    (hbefore : ∀ x ∈ before, level x.key < level g.key)
    (hafter : ∀ x ∈ after, level g.key < level x.key) :
    (before ++ g :: after).Pairwise fun g h => level g.key < level h.key := by
  rw [List.pairwise_append, List.pairwise_append] at h
  obtain ⟨hbelow, ⟨-, habove, -⟩, hacross⟩ := h
  refine List.pairwise_append.2 ⟨hbelow, List.pairwise_cons.2 ⟨hafter, habove⟩, ?_⟩
  intro x hx y hy
  rcases List.mem_cons.1 hy with rfl | hy
  · exact hbefore x hx
  · exact hacross x hx y (List.mem_append_right _ hy)

theorem Collected.complete_added (h : Collected level keys rows groups) {g : Group}
    (hnew : (∀ x ∈ groups, level x.key ≠ level (Table.pickCells keys row)) ∧
        g = ⟨Table.pickCells keys row, [row]⟩ ∨
      ∃ old ∈ groups, level old.key = level (Table.pickCells keys row) ∧
        g = { old with rows := old.rows ++ [row] }) :
    level g.key = level (Table.pickCells keys row) ∧
      g.rows = (rows ++ [row]).filter fun r =>
        level (Table.pickCells keys r) = level (Table.pickCells keys row) := by
  rw [List.filter_append]
  rcases hnew with ⟨hnone, rfl⟩ | ⟨old, hold, hlevel, rfl⟩
  · refine ⟨rfl, ?_⟩
    rw [h.no_rows hnone]
    simp
  · refine ⟨hlevel, ?_⟩
    rw [h.complete old hold, hlevel]
    simp

theorem Collected.concat (h : Collected level keys rows groups)
    (hrow : ∀ r ∈ rows, keyOrder (Table.pickCells keys row) (Table.pickCells keys r) =
      compare (level (Table.pickCells keys row)) (level (Table.pickCells keys r))) :
    Collected level keys (rows ++ [row]) (addRow (Table.pickCells keys row) row groups) := by
  have hkey : ∀ g ∈ groups, keyOrder (Table.pickCells keys row) g.key =
      compare (level (Table.pickCells keys row)) (level g.key) := by
    intro g hg
    obtain ⟨⟨first, rest, hrows, hfirst⟩, hmem⟩ := h.drawn g hg
    rw [hfirst]
    exact hrow first (hmem first (by simp [hrows]))
  have hdrawn : ∀ g ∈ addRow (Table.pickCells keys row) row groups,
      g.DrawnFrom keys (rows ++ [row]) :=
    drawnFrom_addRow (by simp) fun g hg =>
      (h.drawn g hg).mono fun r hr => List.mem_append_left _ hr
  obtain ⟨before, found, after, g, hold, hnew, hbefore, hafter, hfound⟩ :=
    addRow_cases row h.ascending hkey
  -- The row goes to the rows of its own level, and no other level changes.
  have hadded : level g.key = level (Table.pickCells keys row) ∧
      g.rows = (rows ++ [row]).filter fun r =>
        level (Table.pickCells keys r) = level (Table.pickCells keys row) := by
    apply h.complete_added
    rcases hfound with ⟨rfl, hg⟩ | ⟨old, rfl, hlevel, hg⟩
    · refine .inl ⟨?_, hg⟩
      intro x hx
      rw [hold, List.nil_append, List.mem_append] at hx
      exact hx.elim (fun hx => (hbefore x hx).ne) fun hx => (hafter x hx).ne'
    · exact .inr ⟨old, by simp [hold], hlevel, hg⟩
  rw [← hadded.1] at hbefore hafter
  have hascending := h.ascending
  rw [hold] at hascending
  rw [hnew] at hdrawn ⊢
  refine ⟨hdrawn, pairwise_of_between hascending hbefore hafter, ?_, ?_⟩
  · intro x hx
    rw [List.mem_append, List.mem_cons] at hx
    rcases hx with hx | rfl | hx
    · exact h.complete_concat (by simp [hold, hx]) (hadded.1 ▸ (hbefore x hx).ne)
    · rw [hadded.1]
      exact hadded.2
    · exact h.complete_concat (by simp [hold, hx]) (hadded.1 ▸ (hafter x hx).ne')
  · intro r hr
    rcases List.mem_append.1 hr with hr | hr
    · obtain ⟨x, hx, hxlevel⟩ := h.covered r hr
      rw [hold, List.mem_append, List.mem_append] at hx
      rcases hx with hx | hx | hx
      · exact ⟨x, by simp [hx], hxlevel⟩
      · rcases hfound with ⟨rfl, -⟩ | ⟨old, rfl, hlevel, -⟩
        · cases hx
        · cases List.mem_singleton.1 hx
          exact ⟨g, by simp, hadded.1.trans (hlevel.symm.trans hxlevel)⟩
      · exact ⟨x, by simp [hx], hxlevel⟩
    · cases List.mem_singleton.1 hr
      exact ⟨g, by simp, hadded.1⟩

theorem ofRows_concat (keys : List Nat) (rows : List Row) (row : Row) :
    ofRows keys (rows ++ [row]) =
      if hasNullKey keys row then ofRows keys rows
      else addRow (Table.pickCells keys row) row (ofRows keys rows) := by
  unfold ofRows
  rw [List.filter_append, List.foldl_append]
  split
  · next hnull => simp [hnull]
  · next hnull => simp [hnull]

theorem collected_ofRows
    (h : ∀ r ∈ rows, ∀ s ∈ rows, hasNullKey keys r = false → hasNullKey keys s = false →
      keyOrder (Table.pickCells keys r) (Table.pickCells keys s) =
        compare (level (Table.pickCells keys r)) (level (Table.pickCells keys s))) :
    Collected level keys (rows.filter (!hasNullKey keys ·)) (ofRows keys rows) := by
  induction rows using List.reverseRecOn with
  | nil => constructor <;> simp [ofRows]
  | append_singleton rows row ih =>
    have hrows := ih fun r hr s hs =>
      h r (List.mem_append_left _ hr) s (List.mem_append_left _ hs)
    rw [ofRows_concat, List.filter_append]
    split
    · next hnull => simpa [hnull] using hrows
    · next hnull =>
      have hlast : [row].filter (!hasNullKey keys ·) = [row] := by simp [hnull]
      rw [hlast]
      apply hrows.concat
      intro r hr
      have hr := List.mem_filter.1 hr
      exact h row (by simp) r (by simp [hr.1]) (by simpa using hnull) (by simpa using hr.2)

theorem keyOrder_self (key : Key) : keyOrder key key = .eq := by
  induction key with
  | nil => rfl
  | cons v key ih => rw [keyOrder, Cell.order_self, ih, Ordering.then_self]

theorem sublist_of_mem_ofRows {g : Group} (hg : g ∈ ofRows keys rows) :
    g.rows.Sublist rows ∧ ∀ r ∈ g.rows, keyOrder (Table.pickCells keys r) g.key = .eq := by
  induction rows using List.reverseRecOn generalizing g with
  | nil => cases hg
  | append_singleton rows row ih =>
    have hold : ∀ {old}, old ∈ ofRows keys rows → old.rows.Sublist (rows ++ [row]) ∧
        ∀ r ∈ old.rows, keyOrder (Table.pickCells keys r) old.key = .eq := fun h =>
      ⟨(ih h).1.trans (List.sublist_append_left _ _), (ih h).2⟩
    rw [ofRows_concat] at hg
    split at hg
    · exact hold hg
    · rcases mem_addRow hg with hg | rfl | ⟨old, hmem, heq, rfl⟩
      · exact hold hg
      · refine ⟨List.sublist_append_right _ _, ?_⟩
        intro r hr
        cases List.mem_singleton.1 hr
        exact keyOrder_self _
      · obtain ⟨hsub, hequal⟩ := ih hmem
        refine ⟨hsub.append (List.Sublist.refl _), ?_⟩
        intro r hr
        rcases List.mem_append.1 hr with hr | hr
        · exact hequal r hr
        · cases List.mem_singleton.1 hr
          exact heq

theorem perm_addRow (key : Key) (row : Row) (groups : List Group) :
    ((addRow key row groups).flatMap (·.rows)).Perm (row :: groups.flatMap (·.rows)) := by
  induction groups with
  | nil => exact List.Perm.refl _
  | cons g groups ih =>
    unfold addRow
    split
    · exact List.Perm.refl _
    · simp only [List.flatMap_cons, List.append_assoc, List.singleton_append]
      exact List.perm_middle
    · simp only [List.flatMap_cons]
      exact (ih.append_left g.rows).trans List.perm_middle

theorem perm_ofRows (keys : List Nat) (rows : List Row) :
    ((ofRows keys rows).flatMap (·.rows)).Perm (rows.filter (!hasNullKey keys ·)) := by
  induction rows using List.reverseRecOn with
  | nil => exact List.Perm.refl _
  | append_singleton rows row ih =>
    rw [ofRows_concat, List.filter_append]
    split
    · next hnull => simpa [hnull] using ih
    · next hnull =>
      have hlast : [row].filter (!hasNullKey keys ·) = [row] := by simp [hnull]
      rw [hlast]
      apply (perm_addRow _ _ _).trans
      exact (ih.cons row).trans (List.perm_append_singleton row _).symm

end
end TablePlanner.Grouping
