import TablePlanner.Proofs.Prompt.Chain
import TablePlanner.Proofs.Prompt.Validity

/-! Most words that detectors answer to hold an intent word, so a prompt with one of them is valid.
With the others alone it is noise if a character is repeated and no intent word stands beside them.
One word ends with a blank and is too short where nothing follows. -/
namespace TablePlanner

namespace Vocabulary

/-- The words that detectors answer to, by detector. -/
def triggerLists : List (List String) :=
  [topPhrases, regionValues.map (·.1), categoryValues.map (·.1), paymentValues.map (·.1),
   aggregatePhrases, detailPhrases]

def triggers : List String := triggerLists.flatten

/-- The words that detectors answer to and in which no intent word stands, as in `largest`, `food`
and `aggregate`. -/
def unlistedTriggers : List String := triggers.filter fun w => !intentTokens.any (Text.holds w)

end Vocabulary

namespace Prompt
open Vocabulary

section
variable {text : List Char} {word : String}

theorem infix_of_scan {word : List Char} {skip : Nat} {before : Option Char}
    (h : scan word skip before text = true) : word <:+: text := by
  induction text generalizing skip before with
  | nil => cases h
  | cons c text ih =>
    unfold scan at h
    split at h
    · next hfound => exact (List.isPrefixOf_iff_prefix.1 hfound.2).isInfix
    · exact List.infix_cons (ih h)

theorem infix_of_mentions (h : mentions text word = true) : word.toList <:+: text := by
  rw [mentions, Bool.and_eq_true] at h
  exact infix_of_scan h.2

theorem trigger_of_mentionsAny {words : List String} (hwords : words ∈ triggerLists)
    (h : mentionsAny text words = true) : ∃ w ∈ triggers, mentions text w = true := by
  obtain ⟨w, hw, hmentions⟩ := List.any_eq_true.1 h
  exact ⟨w, List.mem_flatten_of_mem hwords hw, hmentions⟩

theorem of_guard {p : Prop} [Decidable p] {u : Unit} (h : (guard p : Option Unit) = some u) :
    p := by
  unfold guard at h
  split at h
  · assumption
  · cases h

section
variable {ctx : Context} {r : Recipe}

theorem mentionsAny_of_topAmountRecipe? (h : topAmountRecipe? ctx = some r) :
    mentionsAny ctx.text topPhrases = true := by
  unfold topAmountRecipe? at h
  obtain ⟨amount, -, h⟩ := Option.bind_eq_some_iff.1 h
  obtain ⟨_, htop, -⟩ := Option.bind_eq_some_iff.1 h
  exact of_guard htop

theorem mentionsAny_of_recipe? {c : Category} (h : c.recipe? ctx = some r) :
    mentionsAny ctx.text (c.values.map (·.1)) = true := by
  unfold Category.recipe? at h
  obtain ⟨column, -, h⟩ := Option.bind_eq_some_iff.1 h
  obtain ⟨value, hvalue, -⟩ := Option.bind_eq_some_iff.1 h
  obtain ⟨p, hp, -⟩ := Option.map_eq_some_iff.1 hvalue
  have hmentions : mentions ctx.text p.1 = true := by simpa using List.find?_some hp
  exact List.any_eq_true.2 ⟨p.1, List.mem_map_of_mem (List.mem_of_find?_eq_some hp), hmentions⟩

theorem mentionsAny_of_groupSummaryRecipe? (h : groupSummaryRecipe? ctx = some r) :
    mentionsAny ctx.text aggregatePhrases = true := by
  unfold groupSummaryRecipe? at h
  obtain ⟨_, haggregate, -⟩ := Option.bind_eq_some_iff.1 h
  exact of_guard haggregate

theorem mentionsAny_of_detailRecipe? (h : detailRecipe? ctx = some r) :
    mentionsAny ctx.text detailPhrases = true := by
  unfold detailRecipe? at h
  obtain ⟨_, hdetail, -⟩ := Option.bind_eq_some_iff.1 h
  exact of_guard hdetail

/-- A detector answers only to one of its words. -/
theorem trigger_of_detected {d : Detector} (hd : d ∈ Detector.standard)
    (h : d.detect ctx = some r) : ∃ w ∈ triggers, mentions ctx.text w = true := by
  simp only [Detector.standard, List.mem_cons, List.not_mem_nil, or_false] at hd
  rcases hd with rfl | rfl | rfl | rfl | rfl | rfl
  · exact trigger_of_mentionsAny (by simp [triggerLists]) (mentionsAny_of_topAmountRecipe? h)
  · exact trigger_of_mentionsAny (by simp [triggerLists, Category.region])
      (mentionsAny_of_recipe? h)
  · exact trigger_of_mentionsAny (by simp [triggerLists, Category.category])
      (mentionsAny_of_recipe? h)
  · exact trigger_of_mentionsAny (by simp [triggerLists, Category.payment])
      (mentionsAny_of_recipe? h)
  · exact trigger_of_mentionsAny (by simp [triggerLists]) (mentionsAny_of_groupSummaryRecipe? h)
  · exact trigger_of_mentionsAny (by simp [triggerLists]) (mentionsAny_of_detailRecipe? h)

end

theorem isFixed_of_isJamo {c : Char} (h : isJamo c = true) : Text.IsFixed c := by
  rw [isJamo, Bool.and_eq_true, decide_eq_true_eq, decide_eq_true_eq] at h
  have hruns : ∀ run ∈ Text.lowercaseRuns, run.last < 0x3131 ∨ 0x318e < run.first := by
    decide +kernel
  have hlower : Text.lowerSimple c = c := by
    refine Text.lowerSimple_of_outside (by omega) fun run hrun => ?_
    have hout := hruns run hrun
    omega
  have hsigma : c ≠ 'Σ' := by
    rintro rfl
    exact absurd h.1 (by decide)
  have hdotted : c ≠ 'İ' := by
    rintro rfl
    exact absurd h.1 (by decide)
  exact ⟨hsigma, by rw [Text.lowerChar, if_neg hdotted, hlower]⟩

theorem triggers_lettered :
    ∀ w ∈ triggers, (w.toList.any fun c => !Text.isBlank c && !isJamo c) = true := by
  decide +kernel

theorem intentTokens_tight : ∀ t ∈ intentTokens, Text.isTight t.toList = true := by
  decide +kernel

theorem triggers_tight : ∀ w ∈ triggers, w = "별 " ∨
    Text.isTight w.toList = true ∧ 2 ≤ w.toList.length ∧ w.toList ≠ ['i', '\u0307'] := by
  decide +kernel

theorem lower_singleton_cases (c : Char) :
    Text.lower [c] = ['i', '\u0307'] ∨ ∃ d, Text.lower [c] = [d] ∧ (d = '별' → c = '별') := by
  by_cases hdotted : c = 'İ'
  · exact .inl (by rw [hdotted]; rfl)
  · by_cases hsigma : c = 'Σ'
    · exact .inr ⟨'σ', by rw [hsigma]; rfl, fun h => absurd h (by decide)⟩
    · have hruns : ∀ run ∈ Text.lowercaseRuns, (('별'.toNat : Nat) : Int) < run.first + run.offset ∨
          run.last + run.offset < (('별'.toNat : Nat) : Int) := by decide +kernel
      refine .inr ⟨Text.lowerSimple c, ?_, Text.eq_of_lowerSimple (by decide) hruns⟩
      simp [Text.lower, Text.lowerAfter, if_neg hsigma, Text.lowerChar, if_neg hdotted]

end

section
variable {prompt word token : String}

theorem mentioned_between (h : mentions (Text.lower prompt.toList) word = true) :
    ∃ front back, Text.AllBlank front ∧ Text.AllBlank back ∧
      word.toList <:+: front ++ Text.lower (Text.trim prompt.toList) ++ back := by
  obtain ⟨front, back, hfront, hback, htext⟩ := Text.exists_lower_trim prompt.toList
  exact ⟨front, back, hfront, hback, htext ▸ infix_of_mentions h⟩

theorem hasIntent_of_mentions (h : mentions (Text.lower prompt.toList) word = true)
    (htoken : token ∈ intentTokens) (hholds : Text.holds word token = true) :
    HasIntent (Text.trim prompt.toList) := by
  obtain ⟨front, back, hfront, hback, hword⟩ := mentioned_between h
  have hwithin : token.toList <:+: word.toList := (Text.occurs_iff_infix _ _).1 hholds
  exact ⟨token, htoken, Text.infix_between_blanks hfront hback (intentTokens_tight token htoken)
    (hwithin.trans hword)⟩

theorem unlisted_of_not_hasIntent (hintent : ¬ HasIntent (Text.trim prompt.toList))
    (hword : word ∈ triggers) (h : mentions (Text.lower prompt.toList) word = true) :
    word ∈ unlistedTriggers := by
  refine List.mem_filter.2 ⟨hword, ?_⟩
  by_contra hlisted
  rw [Bool.not_eq_true', Bool.not_eq_false, List.any_eq_true] at hlisted
  obtain ⟨token, htoken, hholds⟩ := hlisted
  exact hintent (hasIntent_of_mentions h htoken hholds)

section
variable (h : mentions (Text.lower prompt.toList) word = true) (hword : word ∈ triggers)
include h hword

theorem letter_of_mentions : ∃ c ∈ Text.lower (Text.trim prompt.toList),
      Text.isBlank c = false ∧ isJamo c = false := by
  obtain ⟨front, back, hfront, hback, hstands⟩ := mentioned_between h
  obtain ⟨c, hc, hletter⟩ := List.any_eq_true.1 (triggers_lettered word hword)
  rw [Bool.and_eq_true, Bool.not_eq_true', Bool.not_eq_true'] at hletter
  obtain ⟨hblank, hjamo⟩ := hletter
  exact ⟨c, Text.mem_between_blanks hfront hback hblank (hstands.subset hc), hblank, hjamo⟩

theorem not_onlyJamo_of_mentions : ¬ OnlyJamo (Text.trim prompt.toList) := by
  obtain ⟨c, hc, hblank, hjamo⟩ := letter_of_mentions h hword
  rintro ⟨-, hletters⟩
  have hlower : Text.lower (Text.trim prompt.toList) = Text.trim prompt.toList :=
    Text.lower_of_fixed fun d hd => (hletters d hd).elim isFixed_of_isJamo Text.isFixed_of_isBlank
  rw [hlower] at hc
  rcases hletters c hc with hc | hc
  · simp [hc] at hjamo
  · simp [hc] at hblank

/-- Of the prompts that are too short, one is understood. -/
theorem trim_of_short (hshort : (Text.trim prompt.toList).length < 2) :
    Text.trim prompt.toList = ['별'] := by
  obtain ⟨letter, hletter, -⟩ := letter_of_mentions h hword
  obtain ⟨front, back, hfront, hback, hstands⟩ := mentioned_between h
  generalize Text.trim prompt.toList = text at hletter hstands hshort ⊢
  cases text with
  | nil => cases hletter
  | cons c text =>
    have hnil : text = [] := by
      rw [List.length_cons] at hshort
      exact List.eq_nil_of_length_eq_zero (by omega)
    rw [hnil] at hstands ⊢
    rcases triggers_tight word hword with rfl | ⟨htight, hlong, hother⟩
    · have hmem : '별' ∈ Text.lower [c] :=
        Text.mem_between_blanks hfront hback (by decide) (hstands.subset (by decide))
      rcases lower_singleton_cases c with hform | ⟨d, hform, hsame⟩
      · rw [hform] at hmem
        exact absurd hmem (by decide)
      · rw [hform, List.mem_singleton] at hmem
        rw [hsame hmem.symm]
    · -- A longer trigger is the form of one character only if it is that of the dotted capital.
      have hwithin := Text.infix_between_blanks hfront hback htight hstands
      rcases lower_singleton_cases c with hform | ⟨d, hform, -⟩
      · rw [hform] at hwithin
        exact absurd (hwithin.eq_of_length_le hlong) hother
      · rw [hform] at hwithin
        have hlength := hwithin.length_le
        rw [List.length_singleton] at hlength
        omega

theorem tooShort_iff_of_mentions :
    rejection? .standard prompt = some .tooShort ↔ Text.trim prompt.toList = ['별'] := by
  rw [rejection?_eq_some_iff]
  constructor
  · exact fun hfirst => trim_of_short h hword hfirst.1
  · intro htext
    rw [htext]
    exact ⟨Nat.lt_succ_self 1, fun s hs => absurd hs (Nat.not_lt_zero _)⟩

theorem not_jamoOnly_of_mentions : rejection? .standard prompt ≠ some .jamoOnly := fun hreason =>
  not_onlyJamo_of_mentions h hword (rejection?_eq_some_iff.1 hreason).1.2

theorem repeatedCharacter_iff_of_mentions :
    rejection? .standard prompt = some .repeatedCharacter ↔
      HasRun 4 (Text.trim prompt.toList) ∧ ¬ HasIntent (Text.trim prompt.toList) := by
  rw [rejection?_eq_some_iff]
  constructor
  · exact fun hfirst => ⟨hfirst.1.2, hfirst.1.1⟩
  · rintro ⟨hrun, hintent⟩
    refine ⟨⟨hintent, hrun⟩, fun s hs happlies => ?_⟩
    cases s with
    | tooShort =>
      have hlong : 2 ≤ (Text.trim prompt.toList).length := le_trans (by decide) hrun.le_length
      exact absurd happlies (Nat.not_lt_of_le hlong)
    | jamoOnly => exact not_onlyJamo_of_mentions h hword happlies.2
    | repeatedCharacter => exact absurd hs (Nat.lt_irrefl _)

theorem accepted_iff_of_mentions :
    rejection? .standard prompt = none ↔
      Text.trim prompt.toList ≠ ['별'] ∧
        (HasRun 4 (Text.trim prompt.toList) → HasIntent (Text.trim prompt.toList)) := by
  rw [← not_iff_not, not_and_or, not_not, Classical.not_imp,
    ← tooShort_iff_of_mentions h hword, ← repeatedCharacter_iff_of_mentions h hword]
  have hjamo := not_jamoOnly_of_mentions h hword
  cases hreason : rejection? .standard prompt with
  | none => simp
  | some r =>
    cases r with
    | tooShort => simp
    | jamoOnly => exact absurd hreason hjamo
    | repeatedCharacter => simp

end
end

/-- Of the prompts that a detector of the library understands two kinds are rejected, and no others.
The word that ends with a blank is too short by itself. A run of four equal characters is noise in a
text without an intent word; no trigger of such a text holds one. -/
theorem Planner.understood_rejected_iff {prompt : String} {schema : Schema} {name : String}
    (hfired : name ∈ (standard.propose prompt schema).fired) (hname : name ≠ defaultName) :
    let text := Text.trim prompt.toList
    let answer := standard.propose prompt schema
    answer.plan.isValidRequest = answer.validation.isValid ∧
      (answer.validation.isValid = true ↔
        text ≠ ['별'] ∧ (HasRun 4 text → HasIntent text)) ∧
      (answer.validation.rejection = some .tooShort ↔ text = ['별']) ∧
      answer.validation.rejection ≠ some .jamoOnly ∧
      (answer.validation.rejection = some .repeatedCharacter ↔
        HasRun 4 text ∧ ¬ HasIntent text) ∧
      (answer.validation.rejection = some .repeatedCharacter →
        ∀ w ∈ triggers, mentions (Text.lower prompt.toList) w = true → w ∈ unlistedTriggers) := by
  obtain ⟨d, hd, -, r, hdetect⟩ := detected_of_fired hfired hname
  obtain ⟨w, hw, hmentions⟩ := trigger_of_detected hd hdetect
  have hrun := repeatedCharacter_iff_of_mentions hmentions hw
  refine ⟨isValidRequest_propose standard prompt schema, ?_, tooShort_iff_of_mentions hmentions hw,
    not_jamoOnly_of_mentions hmentions hw, hrun, fun hreason v hv hmentioned =>
      unlisted_of_not_hasIntent (hrun.1 hreason).2 hv hmentioned⟩
  exact Option.isNone_iff_eq_none.trans (accepted_iff_of_mentions hmentions hw)

/-- The name of the column is an intent, so the signs behind it do not count against the prompt. -/
theorem Planner.largest_amount_understood :
    "top_amount" ∈ (standard.propose "largest amount!!!!" (.ofColumns ["Amount"])).fired ∧
      "top_amount" ≠ defaultName ∧
      (standard.propose "largest amount!!!!" (.ofColumns ["Amount"])).plan.isValidRequest = true ∧
      (standard.propose "largest amount!!!!" (.ofColumns ["Amount"])).validation.isValid = true ∧
      HasRun 4 (Text.trim "largest amount!!!!".toList) := by
  have hfired : (standard.propose "largest amount!!!!" (.ofColumns ["Amount"])).fired =
      ["top_amount"] := rfl
  have hmem := hfired ▸ List.mem_singleton_self "top_amount"
  obtain ⟨hplan, hvalid, -⟩ := understood_rejected_iff hmem (by decide)
  have hrun : HasRun 4 (Text.trim "largest amount!!!!".toList) :=
    ⟨by decide, '!', by decide⟩
  have hintent : HasIntent (Text.trim "largest amount!!!!".toList) :=
    ⟨"amount", by decide, by decide⟩
  have hholds := hvalid.2 ⟨by decide, fun _ => hintent⟩
  exact ⟨hmem, by decide, hplan.trans hholds, hholds, hrun⟩

/-- The word that ends with a blank is understood and too short; a word for the largest values is
understood and noise when a sign is repeated behind it. -/
theorem Planner.short_and_repeated_rejected :
    ((standard.propose "별 " (.ofColumns ["Name"])).fired = ["group_summary"] ∧
        (standard.propose "별 " (.ofColumns ["Name"])).plan.isValidRequest = false ∧
        (standard.propose "별 " (.ofColumns ["Name"])).validation.rejection = some .tooShort) ∧
      (standard.propose "largest!!!!" (.ofColumns ["Amount"])).fired = ["top_amount"] ∧
      (standard.propose "largest!!!!" (.ofColumns ["Amount"])).plan.isValidRequest = false ∧
      (standard.propose "largest!!!!" (.ofColumns ["Amount"])).validation.rejection =
        some .repeatedCharacter :=
  ⟨⟨rfl, rfl, rfl⟩, rfl, rfl, rfl⟩

end Prompt
end TablePlanner
