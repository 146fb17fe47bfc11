import Mathlib.Data.List.Nodup
import TablePlanner.Plan.Basic

namespace TablePlanner

def Recipe.ownSection (r : Recipe) : Section := ⟨r.title, [r.id]⟩

namespace Plan

def Mirrored (p : Plan) : Prop := p.layout = p.recipes.map Recipe.ownSection

def extend (p : Plan) (r : Recipe) : Plan :=
  { p with recipes := p.recipes ++ [r], layout := p.layout ++ [r.ownSection] }

theorem checkFrom_eq_ok_iff {seen : List String} {recipes : List Recipe} :
    checkFrom seen recipes = .ok () ↔
      "" ∉ recipes.map (·.id) ∧ (recipes.map (·.id)).Nodup ∧
        ∀ id ∈ recipes.map (·.id), id ∉ seen := by
  induction recipes generalizing seen with
  | nil => simp [checkFrom]
  | cons r recipes ih =>
    unfold checkFrom
    by_cases hid : r.id = ""
    · simp [hid]
    · by_cases hseen : r.id ∈ seen
      · simp [hid, hseen]
      · rw [if_neg hid, if_neg hseen, ih]
        simp only [List.map_cons, List.mem_cons, List.nodup_cons, not_or]
        constructor
        · rintro ⟨hempty, hnodup, hfresh⟩
          refine ⟨⟨Ne.symm hid, hempty⟩, ⟨fun hr => (hfresh _ hr).1 rfl, hnodup⟩, ?_⟩
          rintro id (rfl | h)
          · exact hseen
          · exact (hfresh id h).2
        · rintro ⟨⟨-, hempty⟩, ⟨hr, hnodup⟩, hfresh⟩
          refine ⟨hempty, hnodup, fun id h => ⟨?_, hfresh id (.inr h)⟩⟩
          rintro rfl
          exact hr h

theorem check_eq_ok_iff {p : Plan} : p.check = .ok () ↔ "" ∉ p.ids ∧ p.ids.Nodup := by
  simp [check, checkFrom_eq_ok_iff, ids]

theorem isSome_recipe? {p : Plan} {id : String} : (p.recipe? id).isSome = true ↔ id ∈ p.ids := by
  simp [recipe?, ids]

theorem push_of_new {p : Plan} {r : Recipe} (hid : r.id ≠ "") (hnew : r.id ∉ p.ids) :
    p.push r = .ok (p.extend r) := by
  unfold push
  rw [if_neg hid, if_neg (mt isSome_recipe?.1 hnew)]
  rfl

theorem push_of_empty {p : Plan} {r : Recipe} (hid : r.id = "") : p.push r = .error .emptyId := by
  unfold push
  rw [if_pos hid]

theorem push_of_taken {p : Plan} {r : Recipe} (hid : r.id ≠ "") (h : r.id ∈ p.ids) :
    p.push r = .error (.duplicateId r.id) := by
  unfold push
  rw [if_neg hid, if_pos (isSome_recipe?.2 h)]

theorem Mirrored.extend {p : Plan} (h : p.Mirrored) (r : Recipe) : (p.extend r).Mirrored := by
  unfold Mirrored at h ⊢
  simp [Plan.extend, h]

theorem check_extend {p : Plan} (h : p.check = .ok ()) {r : Recipe} (hid : r.id ≠ "")
    (hnew : r.id ∉ p.ids) : (p.extend r).check = .ok () := by
  obtain ⟨hempty, hnodup⟩ := check_eq_ok_iff.1 h
  have hids : (p.extend r).ids = p.ids ++ [r.id] := by simp [ids, extend]
  rw [check_eq_ok_iff, hids]
  refine ⟨by simp [hempty, Ne.symm hid], ?_⟩
  simpa only [List.concat_eq_append] using List.Nodup.concat hnew hnodup

end Plan
end TablePlanner
