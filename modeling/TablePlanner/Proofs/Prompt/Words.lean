import Mathlib.Data.List.Find
import Mathlib.Data.Option.Basic
import TablePlanner.Proofs.Prompt.RowCount
import TablePlanner.Proofs.Prompt.Understood

/-! All words that detectors look for are letters alone or have no part that is both start and end,
so each of them is found where it stands free, and a detector sees a prompt only through them. -/
namespace TablePlanner

namespace Vocabulary

/-- The words that detectors look for whatever the candidates are. -/
def listedWords : List String := triggers ++ groupSuffixes.map (·.1)

end Vocabulary

namespace Prompt
open Json Vocabulary
variable {word text other : List Char} {candidates : List Int} {n : Int}

/-- A run of Latin letters or of digits goes on across a place of a text. -/
def RunsAcross (text : List Char) (place : Nat) : Prop :=
  ∃ l r, (text.take place).getLast? = some l ∧ (text.drop place).head? = some r ∧
    (l.isAlpha = true ∧ r.isAlpha = true ∨ l.isDigit = true ∧ r.isDigit = true)

/-- A word stands at a place of a text and neither of its ends is within a run. -/
def StandsFreeAt (word text : List Char) (place : Nat) : Prop :=
  word <+: text.drop place ∧ ¬ RunsAcross text place ∧ ¬ RunsAcross text (place + word.length)

/-- A word that is all letters, or of which no part but the whole is its start and its end. -/
def Findable (word : List Char) : Prop :=
  word ≠ [] ∧ ((∀ c ∈ word, c.isAlpha = true) ∨ Unbordered word)

instance (word : List Char) : Decidable (Findable word) :=
  decidable_of_iff (word ≠ [] ∧ (word.all Char.isAlpha = true ∨ Unbordered word))
    (by rw [Findable, List.all_eq_true])

/-- What detectors look for: the listed words, and each candidate with a suffix or a lead. -/
def LookedFor (candidates : List Int) (word : String) : Prop :=
  word ∈ listedWords ∨ ∃ n ∈ candidates,
    (∃ suffix ∈ countSuffixes, word = countText n ++ suffix) ∨
      ∃ lead ∈ countLeads, word = lead ++ countText n

theorem joins_iff {left right : Option Char} : joins left right = true ↔
    ∃ l r, left = some l ∧ right = some r ∧
      (l.isAlpha = true ∧ r.isAlpha = true ∨ l.isDigit = true ∧ r.isDigit = true) := by
  cases left <;> cases right <;> simp [joins]

theorem runsAcross_append (front back : List Char) :
    RunsAcross (front ++ back) front.length ↔ joins front.getLast? back.head? = true := by
  rw [RunsAcross, List.take_left, List.drop_left, joins_iff]

theorem standsFreeAt_append (hword : word ≠ []) (front back : List Char) :
    StandsFreeAt word (front ++ word ++ back) front.length ↔
      Free word front.getLast? back.head? := by
  have hstart : RunsAcross (front ++ word ++ back) front.length ↔
      joins front.getLast? word.head? = true := by
    rw [List.append_assoc, runsAcross_append, List.head?_append_of_ne_nil _ hword]
  have hend : RunsAcross (front ++ word ++ back) (front.length + word.length) ↔
      joins word.getLast? back.head? = true := by
    rw [← List.length_append, runsAcross_append, List.getLast?_append_of_ne_nil _ hword]
  have hstands : word <+: (front ++ word ++ back).drop front.length := by
    rw [List.append_assoc, List.drop_left]
    exact List.prefix_append word back
  rw [StandsFreeAt, hstart, hend, Bool.not_eq_true, Bool.not_eq_true]
  exact and_iff_right hstands

theorem standsFree_iff_exists_place (hword : word ≠ []) :
    StandsFree word none text ↔ ∃ place, StandsFreeAt word text place := by
  constructor
  · rintro ⟨front, back, rfl, hfree⟩
    rw [Option.or_none] at hfree
    exact ⟨front.length, (standsFreeAt_append hword front back).2 hfree⟩
  · rintro ⟨place, hplace⟩
    obtain ⟨back, hback⟩ := hplace.1
    have htext : text.take place ++ word ++ back = text := by
      rw [List.append_assoc, hback, List.take_append_drop]
    have hlength : (text.take place).length = place := by
      have hlong := congrArg List.length hback
      have hpositive := List.length_pos_of_ne_nil hword
      rw [List.length_append, List.length_drop] at hlong
      rw [List.length_take]
      omega
    have hfree := standsFreeAt_append hword (text.take place) back
    rw [htext, hlength] at hfree
    refine ⟨text.take place, back, htext.symm, ?_⟩
    rw [Option.or_none]
    exact hfree.1 hplace

theorem Findable.apart (h : Findable word) : Apart word :=
  h.2.elim apart_of_letters apart_of_unbordered

theorem Findable.mentions_iff {word : String} (h : Findable word.toList) :
    mentions text word = true ↔ ∃ place, StandsFreeAt word.toList text place :=
  (mentions_iff_standsFree h.1 h.apart).trans (standsFree_iff_exists_place h.1)

theorem findable_of_listed : ∀ word ∈ listedWords, Findable word.toList := by
  decide +kernel

theorem of_mem_intText {c : Char} (h : c ∈ Number.intText n) : c = '-' ∨ c.isDigit = true := by
  unfold Number.intText at h
  split at h
  · exact (List.mem_cons.1 h).imp_right (Document.isDigit_of_mem_toDigits c)
  · exact .inr (Document.isDigit_of_mem_toDigits c h)

theorem findable_count_suffix {suffix : String} (h : suffix ∈ countSuffixes) :
    Findable (countText n ++ suffix).toList := by
  obtain ⟨s, hs, hminus, -, hdigit⟩ := exists_countSuffix h
  have hnew : s ∉ Number.intText n := fun hmem =>
    (of_mem_intText hmem).elim hminus (by simp [hdigit])
  rw [countText, String.toList_append, String.toList_ofList, hs]
  exact ⟨by simp, .inr (unbordered_of_last hnew)⟩

theorem findable_lead_count {lead : String} (h : lead ∈ countLeads) :
    Findable (lead ++ countText n).toList := by
  obtain ⟨l, rest, hl, hrest, hminus, hdigit, -⟩ := exists_countLead h
  have hnew : l ∉ rest ++ Number.intText n := by
    rw [List.mem_append]
    exact fun hmem => hmem.elim hrest fun hmem =>
      (of_mem_intText hmem).elim hminus (by simp [hdigit])
  rw [countText, String.toList_append, String.toList_ofList, hl]
  exact ⟨by simp, .inr (unbordered_of_head hnew)⟩

theorem findable_of_lookedFor {word : String} (h : LookedFor candidates word) :
    Findable word.toList := by
  rcases h with hlisted | ⟨n, -, ⟨suffix, hsuffix, rfl⟩ | ⟨lead, hlead, rfl⟩⟩
  · exact findable_of_listed word hlisted
  · exact findable_count_suffix hsuffix
  · exact findable_lead_count hlead

theorem mentionsAny_congr {words : List String}
    (h : ∀ w ∈ words, mentions text w = mentions other w) :
    mentionsAny text words = mentionsAny other words := by
  rw [Bool.eq_iff_iff, mentionsAny, mentionsAny, List.any_eq_true, List.any_eq_true]
  exact exists_congr fun w => and_congr_right fun hw => by rw [h w hw]

theorem firstValue?_congr {values : List (String × String)}
    (h : ∀ w ∈ values.map (·.1), mentions text w = mentions other w) :
    firstValue? text values = firstValue? other values :=
  congrArg _ (List.find?_congr fun p hp => h p.1 (List.mem_map_of_mem hp))

theorem asksFor_eq_mentionsAny : asksFor text n =
    (mentionsAny text (countSuffixes.map (countText n ++ ·)) ||
      mentionsAny text (countLeads.map (· ++ countText n))) := by
  rw [mentionsAny, mentionsAny, List.any_map, List.any_map]
  rfl

section
variable {schema : Schema}
  (h : ∀ word, LookedFor candidates word → mentions text word = mentions other word)
include h

theorem requestedCount?_congr :
    requestedCount? text candidates = requestedCount? other candidates := by
  refine List.find?_congr fun n hn => ?_
  have hsuffixes : mentionsAny text (countSuffixes.map (countText n ++ ·)) =
      mentionsAny other (countSuffixes.map (countText n ++ ·)) := by
    refine mentionsAny_congr fun w hw => h w (.inr ⟨n, hn, .inl ?_⟩)
    obtain ⟨suffix, hsuffix, rfl⟩ := List.mem_map.1 hw
    exact ⟨suffix, hsuffix, rfl⟩
  have hleads : mentionsAny text (countLeads.map (· ++ countText n)) =
      mentionsAny other (countLeads.map (· ++ countText n)) := by
    refine mentionsAny_congr fun w hw => h w (.inr ⟨n, hn, .inr ?_⟩)
    obtain ⟨lead, hlead, rfl⟩ := List.mem_map.1 hw
    exact ⟨lead, hlead, rfl⟩
  rw [asksFor_eq_mentionsAny, asksFor_eq_mentionsAny, hsuffixes, hleads]

theorem mentions_trigger_congr {words : List String} (hwords : words ∈ triggerLists) :
    ∀ w ∈ words, mentions text w = mentions other w := fun w hw =>
  h w (.inl (List.mem_append_left _ (List.mem_flatten_of_mem hwords hw)))

theorem groupKey?_congr :
    groupKey? ⟨text, schema, candidates⟩ = groupKey? ⟨other, schema, candidates⟩ := by
  have hsuffixes : (groupSuffixes.filter fun p => mentions text p.1) =
      groupSuffixes.filter fun p => mentions other p.1 :=
    List.filter_congr fun p hp =>
      h p.1 (.inl (List.mem_append_right _ (List.mem_map_of_mem hp)))
  simp only [groupKey?, hsuffixes]

theorem recipe?_congr {c : Category} (hc : c.values.map (·.1) ∈ triggerLists) :
    c.recipe? ⟨text, schema, candidates⟩ = c.recipe? ⟨other, schema, candidates⟩ := by
  simp only [Category.recipe?, firstValue?_congr (mentions_trigger_congr h hc), selectAll]

/-- A detector answers alike to prompts that mention the same of the words that are looked for. -/
theorem detect_congr {d : Detector} (hd : d ∈ Detector.standard) :
    d.detect ⟨text, schema, candidates⟩ = d.detect ⟨other, schema, candidates⟩ := by
  have hlists : ∀ words ∈ triggerLists, mentionsAny text words = mentionsAny other words :=
    fun words hwords => mentionsAny_congr (mentions_trigger_congr h hwords)
  simp only [Detector.standard, List.mem_cons, List.not_mem_nil, or_false] at hd
  rcases hd with rfl | rfl | rfl | rfl | rfl | rfl
  · have hphrases := hlists topPhrases (by simp [triggerLists])
    simp only [Detector.topAmount, topAmountRecipe?, hphrases, requestedCount?_congr h, selectAll]
  · exact recipe?_congr h (by simp [triggerLists, Category.region])
  · exact recipe?_congr h (by simp [triggerLists, Category.category])
  · exact recipe?_congr h (by simp [triggerLists, Category.payment])
  · have hphrases := hlists aggregatePhrases (by simp [triggerLists])
    simp only [Detector.groupSummary, groupSummaryRecipe?, hphrases, groupKey?_congr h]
  · have hphrases := hlists detailPhrases (by simp [triggerLists])
    simp only [Detector.detail, detailRecipe?, hphrases]

end

/-- A prompt mentions a word that can be found exactly if the word stands free somewhere in its
lowercase form. All words that detectors look for can be found, so a detector answers alike to
prompts in which the same of these words stand free. -/
theorem mentions_free_words (prompt : String) (schema : Schema) (candidates : List Int) :
    (∀ word : String, Findable word.toList →
      (mentions (Context.of prompt schema candidates).text word = true ↔
        ∃ place, StandsFreeAt word.toList (Text.lower prompt.toList) place)) ∧
    (∀ word, LookedFor candidates word → Findable word.toList) ∧
    ∀ d ∈ Detector.standard, ∀ other : String,
      (∀ word, LookedFor candidates word →
        ((∃ place, StandsFreeAt word.toList (Text.lower prompt.toList) place) ↔
          ∃ place, StandsFreeAt word.toList (Text.lower other.toList) place)) →
      d.detect (Context.of prompt schema candidates) =
        d.detect (Context.of other schema candidates) := by
  refine ⟨fun word hword => hword.mentions_iff, fun word => findable_of_lookedFor, ?_⟩
  intro d hd other hsame
  refine detect_congr (fun word hword => ?_) hd
  have hfound := findable_of_lookedFor hword
  rw [Bool.eq_iff_iff, hfound.mentions_iff, hfound.mentions_iff]
  exact hsame word hword

/-- The word for transport overlaps itself, and is not free there. No detector sees `top` in a
laptop, nor what follows the name of a city. -/
theorem transport_mentioned :
    Findable "transport".toList ∧
      (∃ place, StandsFreeAt "transport".toList
        (Text.lower "Transportransport, TRANSPORT".toList) place) ∧
      (¬ ∃ place, StandsFreeAt "transport".toList (Text.lower "Transportransport".toList) place) ∧
      (LookedFor [-5] "-5개" ∧ Findable "-5개".toList) ∧
      ∀ d ∈ Detector.standard, d.detect (Context.of "laptop 서울" (.ofColumns ["Region"]) []) =
        d.detect (Context.of "서울시" (.ofColumns ["Region"]) []) := by
  have htransport : Findable "transport".toList := by decide +kernel
  obtain ⟨hfree, -, -⟩ := mentions_free_words "Transportransport, TRANSPORT" (.ofColumns []) []
  obtain ⟨hnone, hfindable, -⟩ := mentions_free_words "Transportransport" (.ofColumns []) [-5]
  obtain ⟨hleft, hlisted, hdetect⟩ := mentions_free_words "laptop 서울" (.ofColumns ["Region"]) []
  obtain ⟨hright, -, -⟩ := mentions_free_words "서울시" (.ofColumns ["Region"]) []
  have hcount : LookedFor [-5] "-5개" :=
    .inr ⟨-5, by simp, .inl ⟨"개", by decide, by decide +kernel⟩⟩
  have hsame : ∀ word ∈ listedWords,
      mentions (Context.of "laptop 서울" (.ofColumns ["Region"]) []).text word =
        mentions (Context.of "서울시" (.ofColumns ["Region"]) []).text word := by
    decide +kernel
  refine ⟨htransport, (hfree _ htransport).1 (by decide +kernel), ?_, ⟨hcount, hfindable _ hcount⟩,
    fun d hd => hdetect d hd _ fun word hword => ?_⟩
  · rw [← hnone _ htransport]
    decide +kernel
  · have hword' : word ∈ listedWords := hword.elim id fun ⟨_, hn, _⟩ => absurd hn List.not_mem_nil
    rw [← hleft word (hlisted word hword), ← hright word (hlisted word hword), hsame word hword']

end Prompt
end TablePlanner
