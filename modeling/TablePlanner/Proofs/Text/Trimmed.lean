import Mathlib.Data.List.TakeWhile
import TablePlanner.Text.Blank
import TablePlanner.Text.Lowercase

/-! White space is its own lowercase form and no letter for the rule of the final sigma, so a text
between white space has the lowercase form that it has alone. -/
namespace TablePlanner.Text

def blankCodes : List Nat :=
  List.range' 9 5 ++ [0x20, 0x85, 0xa0, 0x1680] ++ List.range' 0x2000 11 ++
    [0x2028, 0x2029, 0x202f, 0x205f, 0x3000]

theorem toNat_mem_blankCodes {c : Char} (h : isBlank c = true) : c.toNat ∈ blankCodes := by
  simp only [isBlank, Bool.or_eq_true, Bool.and_eq_true, decide_eq_true_eq, beq_iff_eq] at h
  simp only [blankCodes, List.mem_append, List.mem_range'_1, List.mem_cons, List.not_mem_nil,
    or_false]
  omega

/-- Whether a character is its own lowercase form wherever it stands. -/
def IsFixed (c : Char) : Prop := c ≠ 'Σ' ∧ lowerChar c = [c]

theorem isFixed_of_isBlank {c : Char} (h : isBlank c = true) : IsFixed c := by
  have hall : ∀ n ∈ blankCodes,
      Char.ofNat n ≠ 'Σ' ∧ lowerChar (Char.ofNat n) = [Char.ofNat n] := by decide +kernel
  simpa [IsFixed] using hall _ (toNat_mem_blankCodes h)

theorem no_letter_of_isBlank {c : Char} (h : isBlank c = true) :
    inRanges caseIgnorableRanges c = false ∧ inRanges casedRanges c = false := by
  have hall : ∀ n ∈ blankCodes, inRanges caseIgnorableRanges (Char.ofNat n) = false ∧
      inRanges casedRanges (Char.ofNat n) = false := by decide +kernel
  simpa using hall _ (toNat_mem_blankCodes h)

theorem forall_isDigit {p : Char → Prop}
    (h : ∀ n ≤ '9'.toNat, '0'.toNat ≤ n → p (Char.ofNat n)) {c : Char} (hc : c.isDigit = true) :
    p c := by
  obtain ⟨hleast, hgreatest⟩ := Char.isDigit_iff_toNat.1 hc
  simpa using h c.toNat hgreatest hleast

theorem isBlank_of_isDigit {c : Char} (h : c.isDigit = true) : isBlank c = false :=
  forall_isDigit (p := (isBlank · = false)) (by decide) h

theorem skipBlanks_eq_self {cs : List Char} (h : ∀ c, cs.head? = some c → isBlank c = false) :
    skipBlanks cs = cs := by
  cases cs with
  | nil => rfl
  | cons c cs => simp [skipBlanks, h c rfl]

theorem trim_eq_self {cs : List Char} (h : ∀ c ∈ cs, isBlank c = false) : trim cs = cs := by
  have hback : skipBlanks cs.reverse = cs.reverse :=
    skipBlanks_eq_self fun c hc => h c (List.mem_reverse.1 (List.mem_of_head? hc))
  rw [trim, skipBlanks_eq_self fun c hc => h c (List.mem_of_head? hc), hback, List.reverse_reverse]

def AllBlank (cs : List Char) : Prop := ∀ c ∈ cs, isBlank c = true

section
variable {front text back before word : List Char}

theorem exists_trim (cs : List Char) :
    ∃ front back, AllBlank front ∧ AllBlank back ∧ cs = front ++ trim cs ++ back := by
  let rest := (skipBlanks cs).reverse
  have hrest : (rest.dropWhile isBlank).reverse ++ (rest.takeWhile isBlank).reverse =
      skipBlanks cs := by
    rw [← List.reverse_append, List.takeWhile_append_dropWhile, List.reverse_reverse]
  refine ⟨cs.takeWhile isBlank, (rest.takeWhile isBlank).reverse, ?_, ?_, ?_⟩
  · exact fun c hc => List.mem_takeWhile_imp hc
  · exact fun c hc => List.mem_takeWhile_imp (List.mem_reverse.1 hc)
  · calc cs = cs.takeWhile isBlank ++ skipBlanks cs := List.takeWhile_append_dropWhile.symm
      _ = cs.takeWhile isBlank ++
          ((rest.dropWhile isBlank).reverse ++ (rest.takeWhile isBlank).reverse) := by rw [hrest]
      _ = cs.takeWhile isBlank ++ trim cs ++ (rest.takeWhile isBlank).reverse :=
        (List.append_assoc _ _ _).symm

/-- Whether a text neither starts nor ends with white space and is not empty. -/
def isTight (word : List Char) : Bool :=
  word.head?.any (!isBlank ·) && word.getLast?.any (!isBlank ·)

theorem isTight_append (hfront : front ≠ []) (hback : back ≠ [])
    (hstart : ∀ c ∈ front, isBlank c = false) (hend : ∀ c ∈ back, isBlank c = false)
    (text : List Char) : isTight (front ++ text ++ back) = true := by
  rw [isTight, List.head?_append, List.head?_append, List.getLast?_append,
    List.head?_eq_some_head hfront, List.getLast?_eq_some_getLast hback]
  simp [hstart _ (List.head_mem hfront), hend _ (List.getLast_mem hback)]

theorem skipBlanks_blanks_append (hfront : AllBlank front) (text : List Char) :
    skipBlanks (front ++ text) = skipBlanks text :=
  List.dropWhile_append_of_pos hfront

theorem skipBlanks_of_head? (hword : word.head?.any (!isBlank ·) = true) (back : List Char) :
    skipBlanks (word ++ back) = word ++ back := by
  cases word with
  | nil => cases hword
  | cons c word => exact skipBlanks_eq_self (by simpa using hword)

theorem trim_between_blanks (hfront : AllBlank front) (hback : AllBlank back)
    (htext : isTight text = true) : trim (front ++ text ++ back) = text := by
  rw [isTight, Bool.and_eq_true] at htext
  have hreverse : AllBlank back.reverse := fun c hc => hback c (List.mem_reverse.1 hc)
  have hlast : skipBlanks text.reverse = text.reverse := by
    have hhead : text.reverse.head?.any (!isBlank ·) = true := by
      rw [List.head?_reverse]
      exact htext.2
    simpa using skipBlanks_of_head? hhead []
  calc trim (front ++ text ++ back)
      = (skipBlanks (text ++ back).reverse).reverse := by
        rw [trim, List.append_assoc, skipBlanks_blanks_append hfront, skipBlanks_of_head? htext.1]
    _ = (skipBlanks text.reverse).reverse := by
        rw [List.reverse_append, skipBlanks_blanks_append hreverse]
    _ = text := by rw [hlast, List.reverse_reverse]

/-- What is left of a text without the white space at its ends. -/
def TrimsTo (cs text : List Char) : Prop :=
  ∃ front back, AllBlank front ∧ AllBlank back ∧ cs = front ++ text ++ back ∧
    (text = [] ∨ isTight text = true)

theorem trimsTo_trim (cs : List Char) : TrimsTo cs (trim cs) := by
  obtain ⟨front, back, hfront, hback, hcs⟩ := exists_trim cs
  refine ⟨front, back, hfront, hback, hcs, or_iff_not_imp_left.2 fun hne => ?_⟩
  have hstart : trim cs <+: skipBlanks cs := by
    rw [← List.reverse_reverse (skipBlanks cs), trim, List.reverse_prefix]
    exact List.dropWhile_suffix isBlank
  have hfirst : isBlank ((trim cs).head hne) = false := by
    rw [hstart.head hne]
    exact List.head_dropWhile_not isBlank _
  have hlast : isBlank ((trim cs).getLast hne) = false := by
    simp only [trim, List.getLast_reverse]
    exact List.head_dropWhile_not isBlank _
  rw [isTight, List.head?_eq_some_head hne, List.getLast?_eq_some_getLast hne]
  simp [hfirst, hlast]

theorem infix_of_blanks_append (hfront : AllBlank front)
    (hword : word.head?.any (!isBlank ·) = true) (h : word <:+: front ++ text) :
    word <:+: text := by
  induction front with
  | nil => exact h
  | cons b front ih =>
    rcases List.infix_cons_iff.1 h with h | h
    · cases word with
      | nil => cases hword
      | cons c word =>
        obtain ⟨rfl, -⟩ := List.cons_prefix_cons.1 h
        simp [hfront c List.mem_cons_self] at hword
    · exact ih (fun c hc => hfront c (List.mem_cons_of_mem _ hc)) h

theorem infix_of_append_blanks (hback : AllBlank back)
    (hword : word.getLast?.any (!isBlank ·) = true) (h : word <:+: text ++ back) :
    word <:+: text := by
  rw [← List.reverse_infix] at h ⊢
  rw [List.reverse_append] at h
  refine infix_of_blanks_append (fun c hc => hback c (List.mem_reverse.1 hc)) ?_ h
  rwa [List.head?_reverse]

theorem infix_between_blanks (hfront : AllBlank front) (hback : AllBlank back)
    (hword : isTight word = true) (h : word <:+: front ++ text ++ back) : word <:+: text := by
  rw [isTight, Bool.and_eq_true] at hword
  exact infix_of_blanks_append hfront hword.1 (infix_of_append_blanks hback hword.2 h)

theorem mem_between_blanks {c : Char} (hfront : AllBlank front) (hback : AllBlank back)
    (hc : isBlank c = false) (h : c ∈ front ++ text ++ back) : c ∈ text := by
  rw [List.mem_append, List.mem_append] at h
  rcases h with (h | h) | h
  · simp [hfront c h] at hc
  · exact h
  · simp [hback c h] at hc

theorem leadsToCased_append_blanks (hback : AllBlank back) :
    leadsToCased (text ++ back) = leadsToCased text := by
  induction text with
  | nil =>
    cases back with
    | nil => rfl
    | cons c back =>
      obtain ⟨hmark, hcased⟩ := no_letter_of_isBlank (hback c List.mem_cons_self)
      simp [leadsToCased, hmark, hcased]
  | cons c text ih => simp only [List.cons_append, leadsToCased, ih]

theorem lowerAfter_of_fixed (h : ∀ c ∈ front, IsFixed c) (before text : List Char) :
    lowerAfter before (front ++ text) = front ++ lowerAfter (front.reverse ++ before) text := by
  induction front generalizing before with
  | nil => rfl
  | cons c front ih =>
    obtain ⟨hsigma, hform⟩ := h c List.mem_cons_self
    have hrest := ih (fun d hd => h d (List.mem_cons_of_mem _ hd)) (c :: before)
    simp only [List.cons_append, lowerAfter, if_neg hsigma, hform, hrest, List.reverse_cons,
      List.append_assoc, List.nil_append]

theorem lower_of_fixed (h : ∀ c ∈ text, IsFixed c) : lower text = text := by
  have hall := lowerAfter_of_fixed h [] []
  simpa [lower, lowerAfter] using hall

theorem lowerAfter_append_blanks (hback : AllBlank back) (before text : List Char) :
    lowerAfter before (text ++ back) = lowerAfter before text ++ back := by
  induction text generalizing before with
  | nil =>
    have hall := lowerAfter_of_fixed (fun c hc => isFixed_of_isBlank (hback c hc)) before []
    simpa [lowerAfter] using hall
  | cons c text ih =>
    simp only [List.cons_append, lowerAfter, leadsToCased_append_blanks hback, ih,
      List.append_assoc]

theorem lowerAfter_behind_blanks (hfront : AllBlank front) (before text : List Char) :
    lowerAfter (before ++ front) text = lowerAfter before text := by
  induction text generalizing before with
  | nil => rfl
  | cons c text ih =>
    simp only [lowerAfter, leadsToCased_append_blanks hfront, ← List.cons_append, ih]

theorem lower_between_blanks (hfront : AllBlank front) (hback : AllBlank back) :
    lower (front ++ text ++ back) = front ++ lower text ++ back := by
  have hfixed : ∀ c ∈ front, IsFixed c := fun c hc => isFixed_of_isBlank (hfront c hc)
  have hbehind : lowerAfter front.reverse text = lower text :=
    lowerAfter_behind_blanks (fun c hc => hfront c (List.mem_reverse.1 hc)) [] text
  rw [lower, lowerAfter_append_blanks hback, lowerAfter_of_fixed hfixed, List.append_nil, hbehind]

/-- A lowercase form is that of the trimmed text between white space. -/
theorem exists_lower_trim (cs : List Char) : ∃ front back, AllBlank front ∧ AllBlank back ∧
    lower cs = front ++ lower (trim cs) ++ back := by
  obtain ⟨front, back, hfront, hback, hcs⟩ := exists_trim cs
  refine ⟨front, back, hfront, hback, ?_⟩
  rw [← lower_between_blanks hfront hback, ← hcs]

theorem toNat_ofNat_or (n : Nat) : (Char.ofNat n).toNat = n ∨ (Char.ofNat n).toNat = 0 := by
  by_cases hvalid : n.isValidChar
  · exact .inl (congrArg Char.toNat (dif_pos hvalid))
  · exact .inr (congrArg Char.toNat (dif_neg hvalid))

theorem lowerSimple_of_outside {c : Char} (hc : 0x80 ≤ c.toNat)
    (hruns : ∀ run ∈ lowercaseRuns, c.toNat < run.first ∨ run.last < c.toNat) :
    lowerSimple c = c := by
  unfold lowerSimple
  rw [if_neg (by omega)]
  split
  · next run hrun =>
    have hcontains := List.find?_some hrun
    have hout := hruns run (List.mem_of_find?_eq_some hrun)
    simp only [CaseRun.contains, Bool.and_eq_true, decide_eq_true_eq] at hcontains
    omega
  · rfl

theorem eq_of_lowerSimple {c d : Char} (hd : 0x80 ≤ d.toNat) (hruns : ∀ run ∈ lowercaseRuns,
      (d.toNat : Int) < run.first + run.offset ∨ run.last + run.offset < (d.toNat : Int))
    (h : lowerSimple c = d) : c = d := by
  unfold lowerSimple at h
  split at h
  · next hascii =>
    have hsmall : ∀ n < 0x80, (Char.ofNat n).toLower.toNat < 0x80 := by decide
    have hlower := hsmall _ hascii
    rw [Char.ofNat_toNat, h] at hlower
    omega
  · split at h
    · next run hrun =>
      have hcontains := List.find?_some hrun
      have hoff := hruns run (List.mem_of_find?_eq_some hrun)
      simp only [CaseRun.contains, Bool.and_eq_true, decide_eq_true_eq] at hcontains
      rcases toNat_ofNat_or (c.toNat + run.offset).toNat with hcode | hcode
      · rw [h] at hcode
        omega
      · rw [h] at hcode
        omega
    · exact h

end
end TablePlanner.Text
