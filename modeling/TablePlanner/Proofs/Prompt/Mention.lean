import Mathlib.Data.List.Infix
import TablePlanner.Prompt.Mention

/-! The scan goes on behind each occurrence that it looks at, so it would miss a free one that
overlaps an earlier one. No word overlaps itself unless a part of it is both its start and its end,
and a word of letters that does is not free where it comes a second time. -/
namespace TablePlanner.Prompt
variable {word text : List Char} {c : Char}

/-- A word between two neighbours goes on into neither. -/
def Free (word : List Char) (left right : Option Char) : Prop :=
  joins left word.head? = false ∧ joins word.getLast? right = false

/-- A word stands free in a text that comes after a character. -/
def StandsFree (word : List Char) (before : Option Char) (text : List Char) : Prop :=
  ∃ front back, text = front ++ word ++ back ∧ Free word (front.getLast?.or before) back.head?

def Apart (word : List Char) : Prop :=
  ∀ front back back', front ≠ [] → front.length < word.length →
    word ++ back = front ++ word ++ back' → joins front.getLast? word.head? = true

theorem getLast?_cons_or (c : Char) (front : List Char) (before : Option Char) :
    (c :: front).getLast?.or before = front.getLast?.or (some c) := by
  rw [List.getLast?_cons]
  cases front.getLast? <;> rfl

theorem standsFree_cons_iff {before : Option Char} :
    StandsFree word before (c :: text) ↔
      (∃ back, c :: text = word ++ back ∧ Free word before back.head?) ∨
        StandsFree word (some c) text := by
  constructor
  · rintro ⟨front, back, htext, hfree⟩
    cases front with
    | nil => exact .inl ⟨back, htext, hfree⟩
    | cons d front =>
      obtain ⟨rfl, rfl⟩ := List.cons.inj htext
      rw [getLast?_cons_or] at hfree
      exact .inr ⟨front, back, rfl, hfree⟩
  · rintro (⟨back, htext, hfree⟩ | ⟨front, back, rfl, hfree⟩)
    · exact ⟨[], back, htext, hfree⟩
    · refine ⟨c :: front, back, rfl, ?_⟩
      rwa [getLast?_cons_or]

theorem drop_of_cons_eq {back : List Char} (hword : word ≠ []) (h : c :: text = word ++ back) :
    text.drop (word.length - 1) = back := by
  cases word with
  | nil => exact absurd rfl hword
  | cons d word =>
    obtain ⟨-, rfl⟩ := List.cons.inj h
    simp

/-- Behind an occurrence the scan skips the places where no other one could be free. -/
theorem scan_iff_standsFree (hword : word ≠ []) (hapart : Apart word) {skip : Nat}
    {before : Option Char} (hskip : ∀ front back, text = front ++ word ++ back →
      front.length < skip → ¬ Free word (front.getLast?.or before) back.head?) :
    scan word skip before text = true ↔ StandsFree word before text := by
  induction text generalizing skip before with
  | nil =>
    refine iff_of_false Bool.false_ne_true ?_
    rintro ⟨front, back, htext, -⟩
    simp [hword] at htext
  | cons c text ih =>
    rw [standsFree_cons_iff, scan]
    by_cases hfound : skip = 0 ∧ word.isPrefixOf (c :: text) = true
    · obtain ⟨back, htext⟩ := List.isPrefixOf_iff_prefix.1 hfound.2
      have hback : text.drop (word.length - 1) = back := drop_of_cons_eq hword htext.symm
      have hfree : (!joins before word.head? && !joins word.getLast? back.head?) = true ↔
          ∃ back, c :: text = word ++ back ∧ Free word before back.head? := by
        rw [Bool.and_eq_true, Bool.not_eq_true', Bool.not_eq_true']
        constructor
        · exact fun h => ⟨back, htext.symm, h⟩
        · rintro ⟨back', htext', h⟩
          rwa [List.append_cancel_left (htext.trans htext')]
      have hrest : scan word (word.length - 1) (some c) text = true ↔
          StandsFree word (some c) text := by
        refine ih fun front back' htext' hlength hfree' => ?_
        have hoverlap := hapart (c :: front) back back' (List.cons_ne_nil _ _)
          (by rw [List.length_cons]; omega) (by rw [htext, htext']; rfl)
        rw [← getLast?_cons_or c front none, Option.or_none, Free, hoverlap] at hfree'
        exact Bool.noConfusion hfree'.1
      rw [if_pos hfound, hback, Bool.or_eq_true, hfree, hrest]
    · have hnone : ¬ ∃ back, c :: text = word ++ back ∧ Free word before back.head? := by
        rintro ⟨back, htext, hfree⟩
        have hpositive : 0 < skip := by
          refine Nat.pos_of_ne_zero fun hzero => hfound ⟨hzero, ?_⟩
          exact List.isPrefixOf_iff_prefix.2 ⟨back, htext.symm⟩
        exact hskip [] back htext hpositive hfree
      have hrest : scan word (skip - 1) (some c) text = true ↔
          StandsFree word (some c) text := by
        refine ih fun front back htext hlength => ?_
        have hfirst := hskip (c :: front) back (by rw [htext]; rfl)
          (by rw [List.length_cons]; omega)
        rwa [getLast?_cons_or] at hfirst
      rw [if_neg hfound, hrest, or_iff_right hnone]

theorem mentions_iff_standsFree {word : String} (hword : word.toList ≠ [])
    (hapart : Apart word.toList) :
    mentions text word = true ↔ StandsFree word.toList none text := by
  have hempty : word.isEmpty = false := by
    rw [← Bool.not_eq_true, String.isEmpty_iff]
    rintro rfl
    exact hword rfl
  rw [mentions, hempty, Bool.not_false, Bool.true_and]
  exact scan_iff_standsFree hword hapart fun _ _ _ hlength => absurd hlength (Nat.not_lt_zero _)

/-- A word overlaps itself only in a part of it that is both its start and its end. -/
def Unbordered (word : List Char) : Prop :=
  ∀ border, border <+: word → border <:+ word → border = [] ∨ border = word

instance (word : List Char) : Decidable (Unbordered word) :=
  decidable_of_iff (∀ border ∈ word.inits, border <:+ word → border = [] ∨ border = word) <| by
    simp only [List.mem_inits, Unbordered]

theorem prefix_of_overlap {front back back' : List Char} (hlength : front.length < word.length)
    (heq : word ++ back = front ++ word ++ back') : front <+: word := by
  have hfront : front <+: word ++ back := ⟨word ++ back', by rw [heq, List.append_assoc]⟩
  exact List.prefix_of_prefix_length_le hfront (List.prefix_append _ _) hlength.le

theorem apart_of_unbordered (h : Unbordered word) : Apart word := by
  intro front back back' hne hlength heq
  obtain ⟨border, rfl⟩ := prefix_of_overlap hlength heq
  rw [List.append_assoc, List.append_assoc] at heq
  have hborder : border <+: front ++ border := by
    refine List.prefix_of_prefix_length_le ⟨back, List.append_cancel_left heq⟩
      (List.prefix_append _ back') ?_
    rw [List.length_append]
    exact Nat.le_add_left _ _
  rcases h border hborder (List.suffix_append _ _) with hnil | hall
  · simp [hnil] at hlength
  · exact absurd (List.self_eq_append_left.1 hall) hne

theorem apart_of_letters (h : ∀ c ∈ word, c.isAlpha = true) : Apart word := by
  intro front back back' hne hlength heq
  have hlast : (front.getLast hne).isAlpha = true :=
    h _ ((prefix_of_overlap hlength heq).subset (List.getLast_mem hne))
  have hword : word ≠ [] := List.ne_nil_of_length_pos (Nat.zero_lt_of_lt hlength)
  have hfirst : (word.head hword).isAlpha = true := h _ (List.head_mem hword)
  rw [List.getLast?_eq_getLast_of_ne_nil hne, List.head?_eq_some_head hword]
  simp [joins, hlast, hfirst]

theorem unbordered_of_head (h : c ∉ word) : Unbordered (c :: word) := by
  intro border hstart hend
  rcases List.suffix_cons_iff.1 hend with hall | hinside
  · exact .inr hall
  · cases border with
    | nil => exact .inl rfl
    | cons d border =>
      obtain ⟨rfl, -⟩ := List.cons_prefix_cons.1 hstart
      exact absurd (hinside.subset List.mem_cons_self) h

theorem unbordered_of_last (h : c ∉ word) : Unbordered (word ++ [c]) := by
  intro border hstart hend
  rcases List.prefix_concat_iff.1 hstart with hall | hinside
  · exact .inr hall
  · rcases List.suffix_concat_iff.1 hend with hnil | ⟨front, rfl, -⟩
    · exact .inl hnil
    · exact absurd (hinside.subset (by simp)) h

end TablePlanner.Prompt
