import Mathlib.Data.List.Induction
import Mathlib.Data.List.Nodup
import TablePlanner.Prompt.Planner
import TablePlanner.Proofs.Plan.Check

/-! The first-match rule does not mention the plan: the earliest detector with an offer is taken,
and behind it every unconditional one whose identifier is still free. -/
namespace TablePlanner.Prompt

/-- The answer of a detector, if a plan that does not have its identifier can take it. -/
def Detector.offer? (d : Detector) (ctx : Context) : Option Recipe :=
  (d.detect ctx).filter (·.id ≠ "")

theorem Detector.offer?_eq_some_iff {d : Detector} {ctx : Context} {r : Recipe} :
    d.offer? ctx = some r ↔ d.detect ctx = some r ∧ r.id ≠ "" := by
  simp [offer?, Option.filter_eq_some_iff]

structure Taken where
  place : Nat
  detector : Detector
  recipe : Recipe

structure FirstMatch (ctx : Context) (chain : List Detector) (taken : List Taken) : Prop where
  offered : ∀ e ∈ taken,
    chain[e.place]? = some e.detector ∧ e.detector.offer? ctx = some e.recipe
  ordered : taken.Pairwise fun a b => a.place < b.place ∧ a.recipe.id ≠ b.recipe.id
  /-- No detector in front of all taken ones had an offer. -/
  earliest : ∀ i d, chain[i]? = some d → (∀ e ∈ taken, i < e.place) → d.offer? ctx = none
  later : ∀ a ∈ taken, ∀ b ∈ taken, a.place < b.place → b.detector.unconditional = true
  /-- An unconditional detector is left out only for an identifier that is taken. -/
  complete : ∀ i d r, chain[i]? = some d → d.unconditional = true → d.offer? ctx = some r →
    ⟨i, d, r⟩ ∈ taken ∨ ∃ e ∈ taken, e.place < i ∧ e.recipe.id = r.id

section
variable {ctx : Context} {chain : List Detector} {taken other : List Taken}

theorem getElem?_concat_cases {i : Nat} {d e : Detector} (h : (chain ++ [d])[i]? = some e) :
    chain[i]? = some e ∨ (i = chain.length ∧ e = d) := by
  rcases Nat.lt_or_ge i chain.length with hi | hi
  · left
    rwa [List.getElem?_append_left hi] at h
  · right
    rw [List.getElem?_append_right hi, List.getElem?_singleton] at h
    split at h
    · cases h
      exact ⟨by omega, rfl⟩
    · cases h

namespace FirstMatch

theorem nil : FirstMatch ctx [] [] := by
  constructor <;> simp

theorem place_lt (h : FirstMatch ctx chain taken) {e : Taken} (he : e ∈ taken) :
    e.place < chain.length :=
  (List.getElem?_eq_some_iff.1 (h.offered e he).1).1

theorem offered_concat (h : FirstMatch ctx chain taken) (d : Detector) {e : Taken}
    (he : e ∈ taken) :
    (chain ++ [d])[e.place]? = some e.detector ∧ e.detector.offer? ctx = some e.recipe := by
  obtain ⟨hplace, hoffer⟩ := h.offered e he
  refine ⟨?_, hoffer⟩
  rwa [List.getElem?_append_left (h.place_lt he)]

theorem skip (h : FirstMatch ctx chain taken) {d : Detector}
    (hfirst : taken = [] → d.offer? ctx = none)
    (hlater : d.unconditional = true → ∀ r, d.offer? ctx = some r →
      r.id ∈ taken.map (·.recipe.id)) :
    FirstMatch ctx (chain ++ [d]) taken where
  offered e he := h.offered_concat d he
  ordered := h.ordered
  earliest i x hx hbefore := by
    rcases getElem?_concat_cases hx with hx | ⟨rfl, rfl⟩
    · exact h.earliest i x hx hbefore
    · apply hfirst
      apply List.eq_nil_iff_forall_not_mem.2
      intro e he
      have hlt := hbefore e he
      have hplace := h.place_lt he
      omega
  later := h.later
  complete i x r hx hun hr := by
    rcases getElem?_concat_cases hx with hx | ⟨rfl, rfl⟩
    · exact h.complete i x r hx hun hr
    · obtain ⟨e, he, hid⟩ := List.mem_map.1 (hlater hun r hr)
      exact .inr ⟨e, he, h.place_lt he, hid⟩

theorem take (h : FirstMatch ctx chain taken) {d : Detector} {r : Recipe}
    (hr : d.offer? ctx = some r) (hnew : r.id ∉ taken.map (·.recipe.id))
    (hun : taken ≠ [] → d.unconditional = true) :
    FirstMatch ctx (chain ++ [d]) (taken ++ [⟨chain.length, d, r⟩]) where
  offered e he := by
    rcases List.mem_append.1 he with he | he
    · exact h.offered_concat d he
    · cases List.mem_singleton.1 he
      exact ⟨by simp, hr⟩
  ordered := by
    refine List.pairwise_append.2 ⟨h.ordered, List.pairwise_singleton _ _, ?_⟩
    intro a ha b hb
    cases List.mem_singleton.1 hb
    refine ⟨h.place_lt ha, fun hid => hnew ?_⟩
    exact List.mem_map.2 ⟨a, ha, hid⟩
  earliest i x hx hbefore := by
    have hi : i < chain.length := hbefore ⟨chain.length, d, r⟩ (by simp)
    rw [List.getElem?_append_left hi] at hx
    exact h.earliest i x hx fun e he => hbefore e (List.mem_append_left _ he)
  later a ha b hb hlt := by
    rcases List.mem_append.1 ha with ha | ha <;> rcases List.mem_append.1 hb with hb | hb
    · exact h.later a ha b hb hlt
    · cases List.mem_singleton.1 hb
      exact hun (List.ne_nil_of_mem ha)
    · cases List.mem_singleton.1 ha
      have hplace := h.place_lt hb
      simp only at hlt
      omega
    · cases List.mem_singleton.1 ha
      cases List.mem_singleton.1 hb
      simp at hlt
  complete i x s hx hux hs := by
    rcases getElem?_concat_cases hx with hx | ⟨rfl, rfl⟩
    · rcases h.complete i x s hx hux hs with hmem | ⟨e, he, hlt, hid⟩
      · exact .inl (List.mem_append_left _ hmem)
      · exact .inr ⟨e, List.mem_append_left _ he, hlt, hid⟩
    · cases hr.symm.trans hs
      exact .inl (by simp)

theorem nodup_ids (h : FirstMatch ctx chain taken) : (taken.map (·.recipe.id)).Nodup :=
  List.pairwise_map.2 (h.ordered.imp And.right)

theorem id_ne_of_lt (h : FirstMatch ctx chain taken) {a b : Taken} (ha : a ∈ taken)
    (hb : b ∈ taken) (hlt : a.place < b.place) : a.recipe.id ≠ b.recipe.id := by
  intro hid
  have hab : a = b := List.inj_on_of_nodup_map h.nodup_ids ha hb hid
  rw [hab] at hlt
  exact Nat.lt_irrefl _ hlt

theorem eq_of_place (h : FirstMatch ctx chain taken) (h' : FirstMatch ctx chain other) {a b : Taken}
    (ha : a ∈ taken) (hb : b ∈ other) (hplace : a.place = b.place) : a = b := by
  obtain ⟨hda, hra⟩ := h.offered a ha
  obtain ⟨hdb, hrb⟩ := h'.offered b hb
  rw [hplace, hdb] at hda
  have hd : b.detector = a.detector := Option.some.inj hda
  rw [← hd, hrb] at hra
  have hr : b.recipe = a.recipe := Option.some.inj hra
  cases a
  cases b
  simp_all

theorem mem_of_mem (h : FirstMatch ctx chain taken) (h' : FirstMatch ctx chain other) {e : Taken}
    (he : e ∈ taken) : e ∈ other := by
  -- Strong induction on the place, for both lists at once.
  generalize hn : e.place = n
  induction n using Nat.strongRecOn generalizing taken other e with
  | ind n ih =>
    subst hn
    obtain ⟨hd, hr⟩ := h.offered e he
    by_cases hfirst : ∃ a ∈ taken, a.place < e.place
    · obtain ⟨a, ha, hlt⟩ := hfirst
      have hun := h.later a ha e he hlt
      rcases h'.complete e.place e.detector e.recipe hd hun hr with hmem | ⟨x, hx, hxlt, hid⟩
      · exact hmem
      · have hxt : x ∈ taken := ih x.place hxlt h' h hx rfl
        exact absurd hid (h.id_ne_of_lt hxt he hxlt)
    · have hmeet : ∃ x ∈ other, x.place ≤ e.place := by
        by_contra hnone
        have hbefore : ∀ x ∈ other, e.place < x.place :=
          fun x hx => Nat.lt_of_not_le fun hle => hnone ⟨x, hx, hle⟩
        have hoffer := h'.earliest e.place e.detector hd hbefore
        rw [hr] at hoffer
        cases hoffer
      obtain ⟨x, hx, hle⟩ := hmeet
      rcases Nat.lt_or_eq_of_le hle with hlt | heq
      · exact absurd ⟨x, ih x.place hlt h' h hx rfl, hlt⟩ hfirst
      · exact h.eq_of_place h' he hx heq.symm ▸ hx

theorem unique (h : FirstMatch ctx chain taken) (h' : FirstMatch ctx chain other) :
    other = taken := by
  have hplaces : ∀ {l}, FirstMatch ctx chain l → l.Pairwise fun a b => a.place < b.place :=
    fun hl => hl.ordered.imp And.left
  have hnodup : ∀ {l}, FirstMatch ctx chain l → l.Nodup := by
    intro l hl
    refine List.nodup_iff_pairwise_ne.2 ((hplaces hl).imp ?_)
    rintro a b hlt rfl
    exact Nat.lt_irrefl _ hlt
  have hperm : other.Perm taken :=
    (List.perm_ext_iff_of_nodup (hnodup h') (hnodup h)).2
      fun e => ⟨fun he => h'.mem_of_mem h he, fun he => h.mem_of_mem h' he⟩
  refine hperm.eq_of_pairwise (fun a b _ _ hab hba => ?_) (hplaces h') (hplaces h)
  omega

end FirstMatch
end

/-- A draft that holds the recipes of the taken entries and nothing else. -/
structure Draft.Holds (draft : Draft) (taken : List Taken) : Prop where
  recipes : draft.plan.recipes = taken.map (·.recipe)
  fired : draft.fired = taken.map (·.detector.name)
  mirrored : draft.plan.Mirrored
  checked : draft.plan.check = .ok ()

namespace Draft
variable {ctx : Context} {draft : Draft} {taken : List Taken}

theorem Holds.ids (h : draft.Holds taken) : draft.plan.ids = taken.map (·.recipe.id) := by
  simp [Plan.ids, h.recipes]

theorem push_of_new {r : Recipe} {name : String} (hid : r.id ≠ "")
    (hnew : r.id ∉ draft.plan.ids) :
    draft.push name r = ⟨draft.plan.extend r, draft.fired ++ [name]⟩ := by
  simp [push, Plan.push_of_new hid hnew]

theorem push_of_empty {r : Recipe} {name : String} (hid : r.id = "") :
    draft.push name r = draft := by
  simp [push, Plan.push_of_empty hid]

theorem push_of_taken {r : Recipe} {name : String} (hid : r.id ≠ "")
    (h : r.id ∈ draft.plan.ids) : draft.push name r = draft := by
  simp [push, Plan.push_of_taken hid h]

theorem Holds.push {e : Taken} (h : draft.Holds taken) (hid : e.recipe.id ≠ "")
    (hnew : e.recipe.id ∉ draft.plan.ids) :
    (draft.push e.detector.name e.recipe).Holds (taken ++ [e]) := by
  rw [push_of_new hid hnew]
  constructor
  · simp [Plan.extend, h.recipes]
  · simp [h.fired]
  · exact h.mirrored.extend e.recipe
  · exact Plan.check_extend h.checked hid hnew

/-- Asking one more detector leaves the draft alone, for one of the reasons that the rule knows, or
adds the offer of the detector. -/
theorem ask_cases (draft : Draft) (ctx : Context) (d : Detector) :
    (draft.ask ctx d = draft ∧
      (draft.plan.recipes = [] → d.offer? ctx = none) ∧
      (d.unconditional = true → ∀ r, d.offer? ctx = some r → r.id ∈ draft.plan.ids)) ∨
    (∃ r, draft.ask ctx d = draft.push d.name r ∧ d.offer? ctx = some r ∧
      r.id ∉ draft.plan.ids ∧ (draft.plan.recipes ≠ [] → d.unconditional = true)) := by
  unfold ask
  split
  · rename_i hskip
    simp only [Bool.and_eq_true, Bool.not_eq_true', List.isEmpty_eq_false_iff] at hskip
    refine .inl ⟨rfl, fun hnil => absurd hnil hskip.1, fun hun => ?_⟩
    rw [hun] at hskip
    cases hskip.2
  · rename_i hasked
    have hun : draft.plan.recipes ≠ [] → d.unconditional = true := by simpa using hasked
    split
    · rename_i r hr
      by_cases hid : r.id = ""
      · have hoffer : d.offer? ctx = none := by simp [Detector.offer?, hr, hid, Option.filter]
        exact .inl ⟨push_of_empty hid, fun _ => hoffer, fun _ s hs => by simp [hoffer] at hs⟩
      · have hoffer : d.offer? ctx = some r := Detector.offer?_eq_some_iff.2 ⟨hr, hid⟩
        by_cases htaken : r.id ∈ draft.plan.ids
        · have hne : draft.plan.recipes ≠ [] := by
            intro hnil
            simp [Plan.ids, hnil] at htaken
          refine .inl ⟨push_of_taken hid htaken, fun hnil => absurd hnil hne, fun _ s hs => ?_⟩
          cases hoffer.symm.trans hs
          exact htaken
        · exact .inr ⟨r, rfl, hoffer, htaken, hun⟩
    · rename_i hr
      have hoffer : d.offer? ctx = none := by simp [Detector.offer?, hr]
      exact .inl ⟨rfl, fun _ => hoffer, fun _ s hs => by simp [hoffer] at hs⟩

theorem isValidRequest_push (draft : Draft) (name : String) (r : Recipe) :
    (draft.push name r).plan.isValidRequest = draft.plan.isValidRequest := by
  by_cases hid : r.id = ""
  · rw [push_of_empty hid]
  · by_cases htaken : r.id ∈ draft.plan.ids
    · rw [push_of_taken hid htaken]
    · rw [push_of_new hid htaken]
      rfl

theorem isValidRequest_foldl_ask (chain : List Detector) (draft : Draft) :
    (chain.foldl (Draft.ask ctx) draft).plan.isValidRequest = draft.plan.isValidRequest := by
  induction chain generalizing draft with
  | nil => rfl
  | cons d chain ih =>
    rw [List.foldl_cons, ih]
    rcases ask_cases draft ctx d with ⟨heq, -, -⟩ | ⟨r, heq, -, -, -⟩
    · rw [heq]
    · rw [heq, isValidRequest_push]

theorem Holds.ask (h : draft.Holds taken) {chain : List Detector}
    (hmatch : FirstMatch ctx chain taken) (d : Detector) :
    ∃ more, FirstMatch ctx (chain ++ [d]) (taken ++ more) ∧
      (draft.ask ctx d).Holds (taken ++ more) := by
  rcases ask_cases draft ctx d with ⟨heq, hfirst, hlater⟩ | ⟨r, heq, hoffer, hnew, hun⟩
  · refine ⟨[], ?_, by simpa [heq] using h⟩
    rw [h.recipes, List.map_eq_nil_iff] at hfirst
    rw [h.ids] at hlater
    simpa using hmatch.skip hfirst hlater
  · obtain ⟨-, hid⟩ := Detector.offer?_eq_some_iff.1 hoffer
    refine ⟨[⟨chain.length, d, r⟩], ?_, heq ▸ h.push (e := ⟨chain.length, d, r⟩) hid hnew⟩
    rw [h.ids] at hnew
    rw [h.recipes, ne_eq, List.map_eq_nil_iff] at hun
    exact hmatch.take hoffer hnew hun

theorem holds_empty (isValidRequest : Bool) :
    (Draft.mk (.empty isValidRequest) []).Holds [] := by
  constructor <;> simp [Plan.empty, Plan.Mirrored, Plan.check, Plan.checkFrom]

theorem exists_firstMatch_foldl_ask (isValidRequest : Bool) (chain : List Detector) :
    ∃ taken, FirstMatch ctx chain taken ∧
      (chain.foldl (Draft.ask ctx) ⟨.empty isValidRequest, []⟩).Holds taken := by
  induction chain using List.reverseRecOn with
  | nil => exact ⟨[], .nil, holds_empty isValidRequest⟩
  | append_singleton chain d ih =>
    obtain ⟨taken, hmatch, hholds⟩ := ih
    obtain ⟨more, hmatch, hholds⟩ := hholds.ask hmatch d
    rw [List.foldl_append]
    exact ⟨taken ++ more, hmatch, hholds⟩

end Draft

namespace Planner
variable {p : Planner} {prompt : String} {schema : Schema}

def asked (p : Planner) (prompt : String) (schema : Schema) : Draft :=
  p.detectors.foldl (Draft.ask (.of prompt schema p.candidates))
    ⟨.empty (p.validate prompt).isValid, []⟩

theorem defaultRecipe_id_ne : defaultRecipe.id ≠ "" := by decide

theorem propose_of_some (h : (p.asked prompt schema).plan.recipes ≠ []) :
    p.propose prompt schema =
      ⟨(p.asked prompt schema).plan, p.validate prompt, (p.asked prompt schema).fired⟩ := by
  rw [← List.isEmpty_eq_false_iff, asked] at h
  simp [propose, asked, h]

theorem propose_of_none (h : (p.asked prompt schema).plan.recipes = []) :
    p.propose prompt schema =
      ⟨((p.asked prompt schema).push defaultName defaultRecipe).plan, p.validate prompt,
        ((p.asked prompt schema).push defaultName defaultRecipe).fired⟩ := by
  rw [← List.isEmpty_iff, asked] at h
  simp [propose, asked, h]

def orDefault : List Taken → List Taken
  | [] => [⟨0, ⟨defaultName, true, fun _ => some defaultRecipe⟩, defaultRecipe⟩]
  | e :: taken => e :: taken

theorem orDefault_ne_nil (taken : List Taken) : orDefault taken ≠ [] := by
  cases taken <;> simp [orDefault]

theorem exists_holds_propose (p : Planner) (prompt : String) (schema : Schema) :
    ∃ taken, FirstMatch (.of prompt schema p.candidates) p.detectors taken ∧
      (Draft.mk (p.propose prompt schema).plan (p.propose prompt schema).fired).Holds
        (orDefault taken) := by
  have hasked : ∃ taken, FirstMatch (.of prompt schema p.candidates) p.detectors taken ∧
      (p.asked prompt schema).Holds taken := Draft.exists_firstMatch_foldl_ask _ _
  obtain ⟨taken, hmatch, hholds⟩ := hasked
  refine ⟨taken, hmatch, ?_⟩
  cases taken with
  | nil =>
    have hnil : (p.asked prompt schema).plan.recipes = [] := hholds.recipes
    have hnew : defaultRecipe.id ∉ (p.asked prompt schema).plan.ids := by simp [Plan.ids, hnil]
    rw [propose_of_none hnil]
    exact hholds.push (e := ⟨0, ⟨defaultName, true, fun _ => some defaultRecipe⟩, defaultRecipe⟩)
      defaultRecipe_id_ne hnew
  | cons e taken =>
    have hne : (p.asked prompt schema).plan.recipes ≠ [] := by simp [hholds.recipes]
    rw [propose_of_some hne]
    exact hholds

theorem check_propose (p : Planner) (prompt : String) (schema : Schema) :
    (p.propose prompt schema).plan.check = .ok () := by
  obtain ⟨_, -, hholds⟩ := p.exists_holds_propose prompt schema
  exact hholds.checked

theorem eq_default_or_detected {r : Recipe} (hr : r ∈ (p.propose prompt schema).plan.recipes) :
    r = defaultRecipe ∨ ∃ d ∈ p.detectors, d.detect (.of prompt schema p.candidates) = some r := by
  obtain ⟨taken, hmatch, hholds⟩ := p.exists_holds_propose prompt schema
  rw [hholds.recipes] at hr
  obtain ⟨e, he, rfl⟩ := List.mem_map.1 hr
  cases taken with
  | nil =>
    cases List.mem_singleton.1 he
    exact .inl rfl
  | cons a taken =>
    obtain ⟨hd, hoffer⟩ := hmatch.offered e he
    exact .inr ⟨e.detector, List.mem_of_getElem? hd, (Detector.offer?_eq_some_iff.1 hoffer).1⟩

theorem detected_of_fired {name : String} (h : name ∈ (p.propose prompt schema).fired)
    (hne : name ≠ defaultName) :
    ∃ d ∈ p.detectors, d.name = name ∧ ∃ r, d.detect (.of prompt schema p.candidates) = some r := by
  obtain ⟨taken, hmatch, hholds⟩ := p.exists_holds_propose prompt schema
  have hfired : (p.propose prompt schema).fired = (orDefault taken).map (·.detector.name) :=
    hholds.fired
  rw [hfired] at h
  obtain ⟨e, he, rfl⟩ := List.mem_map.1 h
  cases taken with
  | nil =>
    cases List.mem_singleton.1 he
    exact absurd rfl hne
  | cons a taken =>
    obtain ⟨hd, hoffer⟩ := hmatch.offered e he
    exact ⟨e.detector, List.mem_of_getElem? hd, rfl, e.recipe,
      (Detector.offer?_eq_some_iff.1 hoffer).1⟩

theorem isValidRequest_propose (p : Planner) (prompt : String) (schema : Schema) :
    (p.propose prompt schema).plan.isValidRequest = (p.validate prompt).isValid := by
  have hasked : (p.asked prompt schema).plan.isValidRequest = (p.validate prompt).isValid :=
    Draft.isValidRequest_foldl_ask p.detectors _
  by_cases hnone : (p.asked prompt schema).plan.recipes = []
  · rw [propose_of_none hnone, Draft.isValidRequest_push, hasked]
  · rw [propose_of_some hnone, hasked]

/-- The recipes of a proposal are those of the one choice that the rule allows. The default recipe
stands alone where the rule takes nothing, under its own name. -/
theorem propose_follows_first_match (p : Planner) (prompt : String) (schema : Schema) :
    ∃ taken, FirstMatch (.of prompt schema p.candidates) p.detectors taken ∧
      (∀ other, FirstMatch (.of prompt schema p.candidates) p.detectors other → other = taken) ∧
      ((taken = [] ∧ (p.propose prompt schema).plan.recipes = [defaultRecipe] ∧
          (p.propose prompt schema).fired = [defaultName]) ∨
        (taken ≠ [] ∧ (p.propose prompt schema).plan.recipes = taken.map (·.recipe) ∧
          (p.propose prompt schema).fired = taken.map (·.detector.name))) ∧
      (p.propose prompt schema).plan.recipes ≠ [] ∧
      (p.propose prompt schema).plan.check = .ok () ∧
      (p.propose prompt schema).plan.layout =
        (p.propose prompt schema).plan.recipes.map (fun r => ⟨r.title, [r.id]⟩) ∧
      (p.propose prompt schema).fired.length =
        (p.propose prompt schema).plan.recipes.length := by
  obtain ⟨taken, hmatch, hholds⟩ := p.exists_holds_propose prompt schema
  have hrecipes : (p.propose prompt schema).plan.recipes = (orDefault taken).map (·.recipe) :=
    hholds.recipes
  have hfired : (p.propose prompt schema).fired = (orDefault taken).map (·.detector.name) :=
    hholds.fired
  refine ⟨taken, hmatch, fun other hother => hmatch.unique hother, ?_, ?_, hholds.checked,
    hholds.mirrored, ?_⟩
  · cases taken with
    | nil => exact .inl ⟨rfl, hrecipes, hfired⟩
    | cons e taken => exact .inr ⟨by simp, hrecipes, hfired⟩
  · simp [hrecipes, orDefault_ne_nil]
  · simp [hrecipes, hfired]

end Planner
end TablePlanner.Prompt
