import Mathlib.Data.List.Infix
import TablePlanner.Proofs.Text.Trimmed
import TablePlanner.Prompt.Planner

namespace TablePlanner.Prompt
variable {text : List Char} {length run : Nat} {b c d : Char}

/-- An intent word stands in the lowercase form. -/
def HasIntent (text : List Char) : Prop :=
  ∃ token ∈ Vocabulary.intentTokens, token.toList <:+: Text.lower text

/-- Nothing but single letters of Hangul and white space, and a letter at least. -/
def OnlyJamo (text : List Char) : Prop :=
  (∃ c ∈ text, isJamo c = true) ∧ ∀ c ∈ text, isJamo c = true ∨ Text.isBlank c = true

/-- As many characters in a row as the length says are equal. A length of zero asks for nothing. -/
def HasRun (length : Nat) (text : List Char) : Prop :=
  1 ≤ length ∧ ∃ c, List.replicate length c <:+: text

namespace Rejection

def rank : Rejection → Nat
  | tooShort => 0
  | jamoOnly => 1
  | repeatedCharacter => 2

def Applies (rules : ValidityRules) (text : List Char) : Rejection → Prop
  | tooShort => text.length < rules.minLength
  | jamoOnly => ¬ HasIntent text ∧ OnlyJamo text
  | repeatedCharacter => ¬ HasIntent text ∧ HasRun rules.minRepeat text

/-- The rule is failed and none that is asked before it. -/
def IsFirst (rules : ValidityRules) (text : List Char) (r : Rejection) : Prop :=
  r.Applies rules text ∧ ∀ s : Rejection, s.rank < r.rank → ¬ s.Applies rules text

theorem rank_injective : Function.Injective rank := by
  intro r s
  cases r <;> cases s <;> simp [rank]

theorem IsFirst.unique {rules : ValidityRules} {r s : Rejection} (hr : r.IsFirst rules text)
    (hs : s.IsFirst rules text) : r = s := by
  rcases Nat.lt_trichotomy r.rank s.rank with hlt | heq | hgt
  · exact absurd hr.1 (hs.2 r hlt)
  · exact rank_injective heq
  · exact absurd hs.1 (hr.2 s hgt)

end Rejection

theorem HasRun.le_length (h : HasRun length text) : length ≤ text.length := by
  obtain ⟨-, c, hc⟩ := h
  simpa using hc.length_le

theorem holdsIntent_iff : holdsIntent text = true ↔ HasIntent text := by
  simp only [holdsIntent, List.any_eq_true, Text.occurs_iff_infix, HasIntent]

theorem isBlank_of_isJamo (h : isJamo c = true) : Text.isBlank c = false := by
  rw [isJamo, Bool.and_eq_true, decide_eq_true_eq, decide_eq_true_eq] at h
  by_contra hblank
  have hcode := Text.toNat_mem_blankCodes (Bool.not_eq_false _ ▸ hblank)
  have hbelow : ∀ n ∈ Text.blankCodes, n < 0x3131 := by decide
  have hlow := hbelow _ hcode
  omega

theorem isJamoNoise_iff : isJamoNoise text = true ↔ OnlyJamo text := by
  simp only [isJamoNoise, Bool.and_eq_true, Bool.not_eq_true', List.isEmpty_eq_false_iff_exists_mem,
    List.all_eq_true, List.mem_filter, OnlyJamo]
  constructor
  · rintro ⟨⟨c, hc⟩, hall⟩
    refine ⟨⟨c, hc.1, hall c hc⟩, fun d hd => ?_⟩
    cases hblank : Text.isBlank d with
    | true => exact .inr rfl
    | false => exact .inl (hall d ⟨hd, hblank⟩)
  · rintro ⟨⟨c, hc, hjamo⟩, hall⟩
    refine ⟨⟨c, hc, isBlank_of_isJamo hjamo⟩, fun d hd => ?_⟩
    exact (hall d hd.1).resolve_right (by simp [hd.2])

theorem infix_behind_run (hne : b ≠ c) (hrun : run < length)
    (h : List.replicate length d <:+: List.replicate run b ++ c :: text) :
    List.replicate length d <:+: c :: text := by
  induction run with
  | zero => exact h
  | succ run ih =>
    rw [List.replicate_succ, List.cons_append] at h
    rcases List.infix_cons_iff.1 h with hprefix | hinside
    · have hwithin : b :: (List.replicate run b ++ [c]) <+: List.replicate length d := by
        refine List.prefix_of_prefix_length_le ⟨text, by simp⟩ hprefix ?_
        simpa [Nat.succ_le_iff] using hrun
      have hb : b = d := List.eq_of_mem_replicate (hwithin.subset List.mem_cons_self)
      have hc : c = d := List.eq_of_mem_replicate (hwithin.subset (by simp))
      exact absurd (hb.trans hc.symm) hne
    · exact ih (Nat.lt_of_succ_lt hrun) hinside

theorem completesRun_iff {before : Option Char} (hrun : run < length) :
    completesRun length before run text = true ↔
      ∃ d, List.replicate length d <:+: before.elim [] (List.replicate run) ++ text := by
  -- Of what was read before the text, the run at its end is all that matters.
  induction text generalizing before run with
  | nil =>
    refine iff_of_false Bool.false_ne_true ?_
    rintro ⟨d, hd⟩
    have hlength := hd.length_le
    cases before <;> simp at hlength <;> omega
  | cons c text ih =>
    have hlonger : (∃ d, List.replicate length d <:+:
          before.elim [] (List.replicate run) ++ c :: text) ↔
        ∃ d, List.replicate length d <:+:
          List.replicate (if before = some c then run + 1 else 1) c ++ text := by
      by_cases hsame : before = some c
      · rw [if_pos hsame, hsame, List.replicate_succ', List.append_assoc]
        rfl
      · rw [if_neg hsame]
        cases before with
        | none => rfl
        | some b =>
          have hne : b ≠ c := fun heq => hsame (congrArg some heq)
          refine exists_congr fun d => ⟨infix_behind_run hne hrun, fun h => ?_⟩
          exact h.trans (List.suffix_append _ _).isInfix
    rw [hlonger, completesRun, Bool.or_eq_true, decide_eq_true_eq]
    generalize (if before = some c then run + 1 else 1) = longer
    by_cases hfull : length ≤ longer
    · have hwithin := List.take_prefix length (List.replicate longer c)
      rw [List.take_replicate, Nat.min_eq_left hfull] at hwithin
      exact iff_of_true (.inl hfull) ⟨c, (hwithin.trans (List.prefix_append _ _)).isInfix⟩
    · rw [or_iff_right hfull]
      exact ih (Nat.lt_of_not_le hfull)

theorem hasRepeatedRun_iff : hasRepeatedRun length text = true ↔ HasRun length text := by
  rw [hasRepeatedRun, Bool.and_eq_true, bne_iff_ne, HasRun, Nat.one_le_iff_ne_zero]
  exact and_congr_right fun h => completesRun_iff (Nat.pos_of_ne_zero h)

section
variable {rules : ValidityRules} {prompt : String}

theorem rejection?_cases (rules : ValidityRules) (prompt : String) :
    (rejection? rules prompt = none ∧
        ∀ r : Rejection, ¬ r.Applies rules (Text.trim prompt.toList)) ∨
      ∃ r : Rejection, rejection? rules prompt = some r ∧
        r.IsFirst rules (Text.trim prompt.toList) := by
  unfold rejection?
  dsimp only
  generalize Text.trim prompt.toList = text
  by_cases hshort : text.length < rules.minLength
  · rw [if_pos hshort]
    refine .inr ⟨.tooShort, rfl, hshort, fun s hs => absurd hs (Nat.not_lt_zero _)⟩
  rw [if_neg hshort]
  by_cases hintent : HasIntent text
  · rw [if_pos (holdsIntent_iff.2 hintent)]
    refine .inl ⟨rfl, fun r happlies => ?_⟩
    cases r with
    | tooShort => exact hshort happlies
    | jamoOnly => exact happlies.1 hintent
    | repeatedCharacter => exact happlies.1 hintent
  rw [if_neg (mt holdsIntent_iff.1 hintent)]
  by_cases hjamo : OnlyJamo text
  · rw [if_pos (isJamoNoise_iff.2 hjamo)]
    refine .inr ⟨.jamoOnly, rfl, ⟨hintent, hjamo⟩, fun s hs happlies => ?_⟩
    cases s with
    | tooShort => exact hshort happlies
    | jamoOnly => exact absurd hs (by decide)
    | repeatedCharacter => exact absurd hs (by decide)
  rw [if_neg (mt isJamoNoise_iff.1 hjamo)]
  by_cases hrun : HasRun rules.minRepeat text
  · rw [if_pos (hasRepeatedRun_iff.2 hrun)]
    refine .inr ⟨.repeatedCharacter, rfl, ⟨hintent, hrun⟩, fun s hs happlies => ?_⟩
    cases s with
    | tooShort => exact hshort happlies
    | jamoOnly => exact hjamo happlies.2
    | repeatedCharacter => exact absurd hs (by decide)
  · rw [if_neg (mt hasRepeatedRun_iff.1 hrun)]
    refine .inl ⟨rfl, fun r happlies => ?_⟩
    cases r with
    | tooShort => exact hshort happlies
    | jamoOnly => exact hjamo happlies.2
    | repeatedCharacter => exact hrun happlies.2

theorem rejection?_eq_some_iff {r : Rejection} :
    rejection? rules prompt = some r ↔ r.IsFirst rules (Text.trim prompt.toList) := by
  rcases rejection?_cases rules prompt with ⟨hnone, hpasses⟩ | ⟨first, hsome, hfirst⟩
  · rw [hnone]
    exact iff_of_false (Option.some_ne_none r).symm fun h => hpasses r h.1
  · rw [hsome, Option.some.injEq]
    exact ⟨fun h => h ▸ hfirst, hfirst.unique⟩

theorem forall_not_applies_iff : (∀ r : Rejection, ¬ r.Applies rules text) ↔
    rules.minLength ≤ text.length ∧
      (HasIntent text ∨ ¬ OnlyJamo text ∧ ¬ HasRun rules.minRepeat text) := by
  constructor
  · intro h
    have hjamo := h .jamoOnly
    have hrun := h .repeatedCharacter
    simp only [Rejection.Applies, not_and] at hjamo hrun
    refine ⟨Nat.le_of_not_lt (h .tooShort), or_iff_not_imp_left.2 fun hintent => ?_⟩
    exact ⟨hjamo hintent, hrun hintent⟩
  · rintro ⟨hlength, hrest⟩ r happlies
    cases r with
    | tooShort => exact absurd happlies (Nat.not_lt_of_le hlength)
    | jamoOnly => exact hrest.elim happlies.1 fun h => h.1 happlies.2
    | repeatedCharacter => exact hrest.elim happlies.1 fun h => h.2 happlies.2

/-- A prompt is valid if its text is long enough and, unless an intent word stands in it, is neither
letters of Hangul alone nor has a run. A valid prompt is answered without a reason, every other one
with that of the first rule that it fails. -/
theorem Planner.validate_names_first_failure (p : Planner) (prompt : String) :
    ∃ text, Text.TrimsTo prompt.toList text ∧
      ((p.validate prompt).isValid = true ↔ p.rules.minLength ≤ text.length ∧
        (HasIntent text ∨ ¬ OnlyJamo text ∧ ¬ HasRun p.rules.minRepeat text)) ∧
      ((p.validate prompt).isValid = true ∧
          (p.validate prompt).toJson = .object [("valid", .bool true)] ∨
        ∃ r : Rejection, (p.validate prompt).isValid = false ∧ r.IsFirst p.rules text ∧
          (p.validate prompt).toJson =
            .object [("valid", .bool false), ("reason", .string r.message)]) := by
  refine ⟨Text.trim prompt.toList, Text.trimsTo_trim _, ?_⟩
  rw [← forall_not_applies_iff, Planner.validate]
  rcases rejection?_cases p.rules prompt with ⟨hnone, hpasses⟩ | ⟨r, hsome, hfirst⟩
  · rw [hnone]
    exact ⟨iff_of_true rfl hpasses, .inl ⟨rfl, rfl⟩⟩
  · rw [hsome]
    exact ⟨iff_of_false Bool.false_ne_true fun h => h r hfirst.1, .inr ⟨r, rfl, hfirst, rfl⟩⟩

end
end TablePlanner.Prompt
