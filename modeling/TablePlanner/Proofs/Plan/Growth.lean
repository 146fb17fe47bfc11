import TablePlanner.Proofs.Plan.Check

/-! Adding a recipe tests it before anything of the plan is changed. The check of a finished list
stops at the recipe that a new plan would refuse first, and with the same error. -/
namespace TablePlanner

section
variable {f : β → α → Except ε β} {b : β} {xs : List α} {e : ε}

theorem foldlM_eq_error_iff :
    xs.foldlM f b = .error e ↔
      ∃ before x after c, xs = before ++ x :: after ∧ before.foldlM f b = .ok c ∧
        f c x = .error e := by
  constructor
  · intro h
    induction xs generalizing b with
    | nil => cases h
    | cons x xs ih =>
      rw [List.foldlM_cons] at h
      cases hx : f b x with
      | error e' =>
        rw [hx] at h
        cases h
        exact ⟨[], x, xs, b, rfl, rfl, hx⟩
      | ok c =>
        rw [hx] at h
        obtain ⟨before, y, after, d, hxs, hbefore, hy⟩ := ih h
        refine ⟨x :: before, y, after, d, by simp [hxs], ?_, hy⟩
        rw [List.foldlM_cons, hx]
        exact hbefore
  · rintro ⟨before, x, after, c, rfl, hbefore, hx⟩
    rw [List.foldlM_append, hbefore]
    change List.foldlM f c (x :: after) = _
    rw [List.foldlM_cons, hx]
    rfl

end

namespace Plan
variable {p q : Plan} {r : Recipe} {e : PlanError} {valid : Bool}

def append (r : Recipe) : StateM Plan Unit := do
  modify fun p => { p with layout := p.layout ++ [r.ownSection] }
  modify fun p => { p with recipes := p.recipes ++ [r] }

def add (r : Recipe) : ExceptT PlanError (StateM Plan) Unit := do
  let p ← get
  if r.id = "" then throw .emptyId
  else if (p.recipe? r.id).isSome then throw (.duplicateId r.id)
  else append r

/-- The answer to an attempt to add a recipe, and the plan after it. -/
def attempt (p : Plan) (r : Recipe) : Except PlanError Unit × Plan := (add r).run.run p

theorem attempt_eq (p : Plan) (r : Recipe) :
    p.attempt r =
      match p.push r with
      | .ok q => (.ok (), q)
      | .error e => (.error e, p) := by
  have hrun : p.attempt r =
      (if r.id = "" then throw .emptyId
        else if (p.recipe? r.id).isSome then throw (.duplicateId r.id)
        else append r : ExceptT PlanError (StateM Plan) Unit).run.run p := rfl
  rw [hrun]
  unfold push
  split
  · rfl
  · split <;> rfl

theorem push_of_attempt_ok (h : (p.attempt r).1 = .ok ()) : p.push r = .ok (p.attempt r).2 := by
  rw [attempt_eq] at h ⊢
  cases hpush : p.push r with
  | ok q => rfl
  | error e =>
    rw [hpush] at h
    cases h

theorem push_of_attempt_error (h : (p.attempt r).1 = .error e) :
    p.push r = .error e ∧ (p.attempt r).2 = p := by
  rw [attempt_eq] at h ⊢
  cases hpush : p.push r with
  | ok q =>
    rw [hpush] at h
    cases h
  | error e' =>
    rw [hpush] at h
    cases h
    exact ⟨rfl, rfl⟩

theorem push_eq_ok_iff :
    p.push r = .ok q ↔ r.id ≠ "" ∧ r.id ∉ p.ids ∧ q = p.extend r := by
  by_cases hid : r.id = ""
  · simp [push_of_empty hid, hid]
  · by_cases htaken : r.id ∈ p.ids
    · simp [push_of_taken hid htaken, htaken]
    · simp [push_of_new hid htaken, hid, htaken, eq_comm]

/-- The plans that a new one becomes by attempts to add recipes, whatever the answers. -/
inductive Grown (valid : Bool) : Plan → Prop where
  | empty : Grown valid (.empty valid)
  | attempt {p : Plan} (h : Grown valid p) (r : Recipe) : Grown valid (p.attempt r).2

theorem sound_attempt (hcheck : p.check = .ok ()) (hmirrored : p.Mirrored) (r : Recipe) :
    (p.attempt r).2.check = .ok () ∧ (p.attempt r).2.Mirrored := by
  cases hanswer : (p.attempt r).1 with
  | error e =>
    rw [(push_of_attempt_error hanswer).2]
    exact ⟨hcheck, hmirrored⟩
  | ok _ =>
    obtain ⟨hid, hnew, hextend⟩ := push_eq_ok_iff.1 (push_of_attempt_ok hanswer)
    rw [hextend]
    exact ⟨check_extend hcheck hid hnew, hmirrored.extend r⟩

theorem Grown.sound (h : Grown valid p) : p.check = .ok () ∧ p.Mirrored := by
  induction h with
  | empty => exact ⟨rfl, rfl⟩
  | attempt _ r ih => exact sound_attempt ih.1 ih.2 r

theorem checkFrom_eq {seen : List String} (hseen : ∀ id, id ∈ seen ↔ id ∈ p.ids)
    (recipes : List Recipe) :
    checkFrom seen recipes = (fun _ => ()) <$> recipes.foldlM push p := by
  induction recipes generalizing seen p with
  | nil => rfl
  | cons r recipes ih =>
    rw [List.foldlM_cons]
    unfold checkFrom
    by_cases hid : r.id = ""
    · rw [if_pos hid, push_of_empty hid]
      rfl
    · by_cases htaken : r.id ∈ seen
      · rw [if_neg hid, if_pos htaken, push_of_taken hid ((hseen _).1 htaken)]
        rfl
      · have hpush := push_of_new hid (mt (hseen r.id).2 htaken)
        -- The check has seen just what the plan holds, with the recipe that both take.
        have hmore : ∀ id, id ∈ r.id :: seen ↔ id ∈ (p.extend r).ids := by
          intro id
          rw [ids_push hpush, List.mem_cons, List.mem_append, List.mem_singleton, hseen, or_comm]
        rw [if_neg hid, if_neg htaken, hpush, ih hmore]
        rfl

/-- The check of a plan answers as a new plan does that is offered the same recipes in turn. -/
theorem check_agrees_with_push (p : Plan) (valid : Bool) :
    (p.check = .ok () ↔ ∃ q, p.recipes.foldlM push (empty valid) = .ok q) ∧
    (∀ e, p.check = .error e ↔
      ∃ before r after q, p.recipes = before ++ r :: after ∧
        before.foldlM push (empty valid) = .ok q ∧ q.push r = .error e) ∧
    (∀ r, (p.attempt r).1 = .ok () → p.push r = .ok (p.attempt r).2) ∧
    (∀ r e, (p.attempt r).1 = .error e → p.push r = .error e ∧ (p.attempt r).2 = p) ∧
    (Grown valid p →
      p.check = .ok () ∧ p.layout = p.recipes.map fun r => ⟨r.title, [r.id]⟩) := by
  have hcheck : p.check = (fun _ => ()) <$> p.recipes.foldlM push (empty valid) :=
    checkFrom_eq (by simp [ids, empty]) p.recipes
  refine ⟨?_, fun e => ?_, fun r => push_of_attempt_ok, fun r e => push_of_attempt_error,
    Grown.sound⟩
  · rw [hcheck]
    cases p.recipes.foldlM push (empty valid) <;> simp
  · rw [← foldlM_eq_error_iff, hcheck]
    cases p.recipes.foldlM push (empty valid) <;> simp

def repeated : List Recipe :=
  [⟨"a", "First", []⟩, ⟨"b", "Second", [.limit 1]⟩, ⟨"a", "Again", []⟩, ⟨"", "Nameless", []⟩]

theorem repeated_stops_at_again :
    (⟨repeated, [], false⟩ : Plan).check = .error (.duplicateId "a") ∧
    (∃ before r after q, repeated = before ++ r :: after ∧
      before.foldlM push (empty true) = .ok q ∧ q.push r = .error (.duplicateId "a")) ∧
    ∃ p, Grown true p ∧ p.ids = ["a", "b"] ∧ p.check = .ok () ∧
      p.layout = [⟨"First", ["a"]⟩, ⟨"Second", ["b"]⟩] := by
  have hcheck : (⟨repeated, [], false⟩ : Plan).check = .error (.duplicateId "a") := by
    simp [repeated, check, checkFrom]
  obtain ⟨-, hfirst, -⟩ := check_agrees_with_push ⟨repeated, [], false⟩ true
  refine ⟨hcheck, (hfirst _).1 hcheck, ?_⟩
  have hgrown : Grown true (repeated.foldl (fun p r => (p.attempt r).2) (.empty true)) :=
    .attempt (.attempt (.attempt (.attempt .empty _) _) _) _
  obtain ⟨-, -, -, -, hsound⟩ := check_agrees_with_push _ true
  obtain ⟨hpasses, hlayout⟩ := hsound hgrown
  exact ⟨_, hgrown, rfl, hpasses, hlayout⟩

end Plan
end TablePlanner
