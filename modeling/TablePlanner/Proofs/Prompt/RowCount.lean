import TablePlanner.Proofs.Json.Literal
import TablePlanner.Proofs.Prompt.Mention
import TablePlanner.Proofs.Text.Trimmed
import TablePlanner.Prompt.Detector

namespace TablePlanner.Prompt
open Json Vocabulary
variable {left right : Option Char} {c : Char} {digits text : List Char} {n : Int}

theorem not_isAlpha_of_isDigit (h : c.isDigit = true) : c.isAlpha = false :=
  Text.forall_isDigit (p := (·.isAlpha = false)) (by decide) h

theorem joins_head?_digits (hne : digits ≠ []) (hdigits : ∀ c ∈ digits, c.isDigit = true) :
    joins left digits.head? = left.any Char.isDigit := by
  obtain ⟨d, rest, rfl⟩ := List.exists_cons_of_ne_nil hne
  have hd := hdigits d List.mem_cons_self
  cases left <;> simp [joins, hd, not_isAlpha_of_isDigit hd]

theorem joins_getLast?_digits (hne : digits ≠ []) (hdigits : ∀ c ∈ digits, c.isDigit = true) :
    joins digits.getLast? right = right.any Char.isDigit := by
  have hd := hdigits _ (List.getLast_mem hne)
  rw [List.getLast?_eq_getLast_of_ne_nil hne]
  cases right <;> simp [joins, hd, not_isAlpha_of_isDigit hd]

/-- A run of digits between two parts of a text that no digit next to it makes longer. -/
structure WholeNumber (before digits after : List Char) : Prop where
  ne_nil : digits ≠ []
  isDigit : ∀ c ∈ digits, c.isDigit = true
  start : before.getLast?.any Char.isDigit = false
  stop : after.head?.any Char.isDigit = false

/-- A suffix stands right behind a number, or a lead right before it. A Latin lead is a whole word:
no letter stands before it. -/
def CountsRows (before after : List Char) : Prop :=
  (∃ suffix ∈ countSuffixes, suffix.toList <+: after) ∨
    ∃ lead ∈ countLeads, ∃ front, before = front ++ lead.toList ∧
      (lead.toList.head?.any Char.isAlpha = true → front.getLast?.any Char.isAlpha = false)

/-- A whole number of a text is the decimal text of `n`, and a word beside it makes it a count. -/
def Phrases (text : List Char) (n : Int) : Prop :=
  ∃ before after, text = before ++ Number.intText n ++ after ∧
    WholeNumber before (Number.intText n) after ∧ CountsRows before after

theorem exists_countSuffix {suffix : String} (h : suffix ∈ countSuffixes) :
    ∃ s, suffix.toList = [s] ∧ s ≠ '-' ∧ s.isAlpha = false ∧ s.isDigit = false := by
  simp only [countSuffixes, List.mem_cons, List.not_mem_nil, or_false] at h
  rcases h with rfl | rfl | rfl <;> exact ⟨_, rfl, by decide⟩

theorem exists_countLead {lead : String} (h : lead ∈ countLeads) :
    ∃ l rest, lead.toList = l :: rest ∧ l ∉ rest ∧ l ≠ '-' ∧ l.isDigit = false ∧
      (l :: rest).getLast?.any Char.isDigit = false := by
  simp only [countLeads, List.mem_cons, List.not_mem_nil, or_false] at h
  rcases h with rfl | rfl | rfl | rfl <;> exact ⟨_, _, rfl, by decide⟩

theorem intText_of_nonneg (h : 0 ≤ n) :
    Number.intText n ≠ [] ∧ ∀ c ∈ Number.intText n, c.isDigit = true := by
  rw [Number.intText, if_neg (by omega)]
  exact ⟨Nat.toDigits_ne_nil, Document.isDigit_of_mem_toDigits⟩

section
variable (hne : digits ≠ []) (hdigits : ∀ c ∈ digits, c.isDigit = true)
include hne hdigits

theorem mentions_suffix_iff {suffix : String} (hsuffix : suffix ∈ countSuffixes) :
    mentions text (String.ofList digits ++ suffix) = true ↔
      ∃ before after, text = before ++ digits ++ after ∧ WholeNumber before digits after ∧
        suffix.toList <+: after := by
  obtain ⟨s, hs, -, halpha, hdigit⟩ := exists_countSuffix hsuffix
  have hword : (String.ofList digits ++ suffix).toList = digits ++ [s] := by
    rw [String.toList_append, String.toList_ofList, hs]
  have hnew : s ∉ digits := fun hmem => by simp [hdigits s hmem] at hdigit
  have hapart : Apart (String.ofList digits ++ suffix).toList :=
    hword ▸ apart_of_unbordered (unbordered_of_last hnew)
  rw [mentions_iff_standsFree (by simp [hword]) hapart, hword, hs]
  have hhead : (digits ++ [s]).head? = digits.head? := List.head?_append_of_ne_nil _ hne
  have hfree : ∀ left right, Free (digits ++ [s]) left right ↔ left.any Char.isDigit = false := by
    intro left right
    rw [Free, hhead, joins_head?_digits hne hdigits]
    cases right <;> simp [joins, halpha, hdigit]
  constructor
  · rintro ⟨front, back, rfl, h⟩
    rw [hfree, Option.or_none] at h
    exact ⟨front, s :: back, by simp, ⟨hne, hdigits, h, hdigit⟩, ⟨back, rfl⟩⟩
  · rintro ⟨before, _, rfl, hnumber, ⟨back, rfl⟩⟩
    refine ⟨before, back, by simp, ?_⟩
    rw [hfree, Option.or_none]
    exact hnumber.start

theorem mentions_lead_iff {lead : String} (hlead : lead ∈ countLeads) :
    mentions text (lead ++ String.ofList digits) = true ↔
      ∃ front after, text = front ++ lead.toList ++ digits ++ after ∧
        WholeNumber (front ++ lead.toList) digits after ∧
        (lead.toList.head?.any Char.isAlpha = true → front.getLast?.any Char.isAlpha = false) := by
  obtain ⟨l, rest, hl, hrest, -, hdigit, hlast⟩ := exists_countLead hlead
  have hword : (lead ++ String.ofList digits).toList = l :: (rest ++ digits) := by
    rw [String.toList_append, String.toList_ofList, hl, List.cons_append]
  have hnew : l ∉ rest ++ digits := by
    rw [List.mem_append]
    exact fun hmem => hmem.elim hrest fun hmem => by simp [hdigits l hmem] at hdigit
  have hapart : Apart (lead ++ String.ofList digits).toList :=
    hword ▸ apart_of_unbordered (unbordered_of_head hnew)
  rw [mentions_iff_standsFree (by simp [hword]) hapart, hword, hl]
  have hgetLast : (l :: (rest ++ digits)).getLast? = digits.getLast? := by
    rw [← List.cons_append, List.getLast?_append_of_ne_nil _ hne]
  have hfree : ∀ left right, Free (l :: (rest ++ digits)) left right ↔
      (l.isAlpha = true → left.any Char.isAlpha = false) ∧ right.any Char.isDigit = false := by
    intro left right
    rw [Free, hgetLast, joins_getLast?_digits hne hdigits]
    cases left <;> simp [joins, hdigit]
  have hstart : ∀ front, (front ++ l :: rest).getLast?.any Char.isDigit = false := by
    intro front
    rwa [List.getLast?_append_of_ne_nil _ (List.cons_ne_nil _ _)]
  constructor
  · rintro ⟨front, back, rfl, h⟩
    rw [hfree, Option.or_none] at h
    exact ⟨front, back, by simp, ⟨hne, hdigits, hstart front, h.2⟩, h.1⟩
  · rintro ⟨front, after, rfl, hnumber, hfront⟩
    refine ⟨front, after, by simp, ?_⟩
    rw [hfree, Option.or_none]
    exact ⟨hfront, hnumber.stop⟩

end

/-- A text asks for a number exactly if it phrases it as a count of rows. -/
theorem asksFor_iff_phrases (h : 0 ≤ n) : asksFor text n = true ↔ Phrases text n := by
  obtain ⟨hne, hdigits⟩ := intText_of_nonneg h
  simp only [asksFor, countText, Bool.or_eq_true, List.any_eq_true]
  constructor
  · rintro (⟨suffix, hsuffix, hmentions⟩ | ⟨lead, hlead, hmentions⟩)
    · obtain ⟨before, after, htext, hnumber, hafter⟩ :=
        (mentions_suffix_iff hne hdigits hsuffix).1 hmentions
      exact ⟨before, after, htext, hnumber, .inl ⟨suffix, hsuffix, hafter⟩⟩
    · obtain ⟨front, after, htext, hnumber, hfront⟩ :=
        (mentions_lead_iff hne hdigits hlead).1 hmentions
      exact ⟨_, after, htext, hnumber, .inr ⟨lead, hlead, front, rfl, hfront⟩⟩
  · rintro ⟨before, after, htext, hnumber, hcount⟩
    rcases hcount with ⟨suffix, hsuffix, hafter⟩ | ⟨lead, hlead, front, rfl, hfront⟩
    · exact .inl ⟨suffix, hsuffix,
        (mentions_suffix_iff hne hdigits hsuffix).2 ⟨before, after, htext, hnumber, hafter⟩⟩
    · exact .inr ⟨lead, hlead,
        (mentions_lead_iff hne hdigits hlead).2 ⟨front, after, htext, hnumber, hfront⟩⟩

section
variable {candidates others : List Int}

theorem requestedCount?_eq_some_iff (h : ∀ n ∈ candidates, 0 ≤ n) :
    requestedCount? text candidates = some n ↔
      ∃ before after, candidates = before ++ n :: after ∧ Phrases text n ∧
        ∀ m ∈ before, ¬ Phrases text m := by
  rw [requestedCount?, List.find?_eq_some_iff_append]
  constructor
  · rintro ⟨hn, before, after, rfl, hbefore⟩
    refine ⟨before, after, rfl, (asksFor_iff_phrases (h n (by simp))).1 hn, fun m hm => ?_⟩
    rw [← asksFor_iff_phrases (h m (by simp [hm]))]
    simpa using hbefore m hm
  · rintro ⟨before, after, rfl, hn, hbefore⟩
    refine ⟨(asksFor_iff_phrases (h n (by simp))).2 hn, before, after, rfl, fun m hm => ?_⟩
    have hm' := hbefore m hm
    rw [← asksFor_iff_phrases (h m (by simp [hm]))] at hm'
    simpa using hm'

theorem requestedCount?_eq_none_iff (h : ∀ n ∈ candidates, 0 ≤ n) :
    requestedCount? text candidates = none ↔ ∀ n ∈ candidates, ¬ Phrases text n := by
  rw [requestedCount?, List.find?_eq_none]
  exact forall₂_congr fun n hn => not_congr (asksFor_iff_phrases (h n hn))

theorem phrases_of_requestedCount? (h : ∀ n ∈ candidates, 0 ≤ n)
    (hn : requestedCount? text candidates = some n) : n ∈ candidates ∧ Phrases text n := by
  obtain ⟨before, after, rfl, hphrases, -⟩ := (requestedCount?_eq_some_iff h).1 hn
  exact ⟨by simp, hphrases⟩

theorem two_phrased_of_requestedCount?_ne (h : ∀ n ∈ candidates, 0 ≤ n)
    (hsame : ∀ n, n ∈ others ↔ n ∈ candidates)
    (hne : requestedCount? text others ≠ requestedCount? text candidates) :
    ∃ m ∈ candidates, ∃ n ∈ candidates, m ≠ n ∧ Phrases text m ∧ Phrases text n := by
  have hothers : ∀ n ∈ others, 0 ≤ n := fun n hn => h n ((hsame n).1 hn)
  cases hm : requestedCount? text others with
  | none =>
    have hnone := (requestedCount?_eq_none_iff hothers).1 hm
    have hnone' := (requestedCount?_eq_none_iff h).2 fun n hn => hnone n ((hsame n).2 hn)
    exact absurd (hm.trans hnone'.symm) hne
  | some m =>
    obtain ⟨hmem, hphrases⟩ := phrases_of_requestedCount? hothers hm
    cases hn : requestedCount? text candidates with
    | none => exact absurd hphrases ((requestedCount?_eq_none_iff h).1 hn m ((hsame m).1 hmem))
    | some n =>
      obtain ⟨hmem', hphrases'⟩ := phrases_of_requestedCount? h hn
      refine ⟨m, (hsame m).1 hmem, n, hmem', ?_, hphrases, hphrases'⟩
      rintro rfl
      exact hne (hm.trans hn.symm)

end

/-- Which of some candidates a prompt asks for: the first that it phrases as a count of rows with a
whole number of its own. The order of the candidates matters only where it phrases two of them. -/
theorem requestedCount_reads_whole_numbers (prompt : String) {candidates : List Int}
    (h : ∀ n ∈ candidates, 0 ≤ n) :
    let text := Text.lower prompt.toList
    (∀ n, requestedCount? text candidates = some n ↔
      ∃ before after, candidates = before ++ n :: after ∧ Phrases text n ∧
        ∀ m ∈ before, ¬ Phrases text m) ∧
      (requestedCount? text candidates = none ↔ ∀ n ∈ candidates, ¬ Phrases text n) ∧
      ∀ others, (∀ n, n ∈ others ↔ n ∈ candidates) →
        requestedCount? text others ≠ requestedCount? text candidates →
        ∃ m ∈ candidates, ∃ n ∈ candidates, m ≠ n ∧ Phrases text m ∧ Phrases text n :=
  ⟨fun _ => requestedCount?_eq_some_iff h, requestedCount?_eq_none_iff h,
    fun _ => two_phrased_of_requestedCount?_ne h⟩

/-- A number that is no candidate ends with a candidate, and so does a word with a lead. -/
theorem fifteen_or_five_requestedCount :
    (∀ n ∈ [20, 10, 5], (0 : Int) ≤ n) ∧
      (requestedCount? (Text.lower "Top 15, 상위 5개".toList) [20, 10, 5] = some 5 ∧
        Phrases (Text.lower "Top 15, 상위 5개".toList) 5) ∧
      ∀ n ∈ [20, 10, 5], ¬ Phrases (Text.lower "Laptop 5, 합계 15개".toList) n := by
  have hnonneg : ∀ n ∈ [20, 10, 5], (0 : Int) ≤ n := by decide
  obtain ⟨hsome, -, -⟩ := requestedCount_reads_whole_numbers "Top 15, 상위 5개" hnonneg
  obtain ⟨-, hnone, -⟩ := requestedCount_reads_whole_numbers "Laptop 5, 합계 15개" hnonneg
  have hfive : requestedCount? (Text.lower "Top 15, 상위 5개".toList) [20, 10, 5] = some 5 := by
    decide +kernel
  obtain ⟨-, -, -, hphrases, -⟩ := (hsome 5).1 hfive
  exact ⟨hnonneg, ⟨hfive, hphrases⟩, hnone.1 (by decide +kernel)⟩

end TablePlanner.Prompt
