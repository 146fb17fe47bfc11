import TablePlanner.Proofs.Json.Literal
import TablePlanner.Proofs.Numeric.Shortest

/-! The text of a float names a decimal that reads back as its magnitude, and has a point or an
exponent, which no integer has. -/
namespace TablePlanner.Json.Number
open Document

def literalDecimal (literal : List Char) : Decimal :=
  let whole := literal.takeWhile Char.isDigit
  match literal.dropWhile Char.isDigit with
  | '.' :: tail =>
    let fraction := tail.takeWhile Char.isDigit
    ⟨Nat.ofDigitChars 10 (whole ++ fraction) 0,
      exponentValue (tail.dropWhile Char.isDigit) - fraction.length⟩
  | tail => ⟨Nat.ofDigitChars 10 whole 0, exponentValue tail⟩

section
variable {whole fraction tail : List Char}

theorem literalDecimal_point (hwhole : ∀ c ∈ whole, c.isDigit = true)
    (hfraction : ∀ c ∈ fraction, c.isDigit = true)
    (htail : ∀ c, tail.head? = some c → c.isDigit = false) :
    literalDecimal (whole ++ '.' :: (fraction ++ tail)) =
      ⟨Nat.ofDigitChars 10 (whole ++ fraction) 0, exponentValue tail - fraction.length⟩ := by
  have hpoint : ∀ c, ('.' :: (fraction ++ tail)).head? = some c → c.isDigit = false := by
    intro c hc
    cases hc
    rfl
  obtain ⟨htake, hdrop⟩ := span_digits hwhole hpoint
  obtain ⟨htake', hdrop'⟩ := span_digits hfraction htail
  simp only [literalDecimal, htake, hdrop, htake', hdrop']

theorem literalDecimal_exponent (hwhole : ∀ c ∈ whole, c.isDigit = true) (tail : List Char) :
    literalDecimal (whole ++ 'e' :: tail) =
      ⟨Nat.ofDigitChars 10 whole 0, exponentValue ('e' :: tail)⟩ := by
  have hmark : ∀ c, ('e' :: tail).head? = some c → c.isDigit = false := by
    intro c hc
    cases hc
    rfl
  obtain ⟨htake, hdrop⟩ := span_digits hwhole hmark
  simp only [literalDecimal, htake, hdrop]
  rfl

end

theorem exponentValue_digits (n : Int) :
    exponentValue ('e' :: (if n < 0 then '-' else '+') :: Nat.toDigits 10 n.natAbs) = n := by
  split
  · simp only [exponentValue, Nat.ofDigitChars_ten_toDigits]
    omega
  · simp only [exponentValue, Nat.ofDigitChars_ten_toDigits]
    omega

theorem isDigit_of_mem_zeros {n : Nat} : ∀ c ∈ zeros n, c.isDigit = true := by
  intro c hc
  rw [List.eq_of_mem_replicate hc]
  rfl

theorem ofDigitChars_zeros_append (n : Nat) (digits : List Char) :
    Nat.ofDigitChars 10 (zeros n ++ digits) 0 = Nat.ofDigitChars 10 digits 0 := by
  rw [Nat.ofDigitChars_append, zeros, Nat.ofDigitChars_replicate_zero, Nat.mul_zero]

section
variable {whole fraction digits : List Char}

theorem literalDecimal_fraction (hwhole : ∀ c ∈ whole, c.isDigit = true)
    (hfraction : ∀ c ∈ fraction, c.isDigit = true) :
    literalDecimal (whole ++ '.' :: fraction) =
      ⟨Nat.ofDigitChars 10 (whole ++ fraction) 0, -fraction.length⟩ := by
  have hend : ∀ c, ([] : List Char).head? = some c → c.isDigit = false := by simp
  have hpoint := literalDecimal_point hwhole hfraction hend
  rwa [List.append_nil, exponentValue, Int.zero_sub] at hpoint

theorem literalDecimal_scientific (h : ∀ c ∈ digits, c.isDigit = true) (n : Int) :
    literalDecimal (digits.take 1 ++
        (if (digits.drop 1).isEmpty then [] else '.' :: digits.drop 1) ++
        'e' :: (if n < 0 then '-' else '+') :: Nat.toDigits 10 n.natAbs) =
      ⟨Nat.ofDigitChars 10 digits 0, n - (digits.drop 1).length⟩ := by
  have htake : ∀ c ∈ digits.take 1, c.isDigit = true := fun c hc => h c (List.mem_of_mem_take hc)
  have hdrop : ∀ c ∈ digits.drop 1, c.isDigit = true := fun c hc => h c (List.mem_of_mem_drop hc)
  split
  · next hnone =>
    have hnil : digits.drop 1 = [] := List.isEmpty_iff.1 hnone
    have hone : digits.take 1 = digits := by
      conv_rhs => rw [← List.take_append_drop 1 digits, hnil, List.append_nil]
    rw [List.append_nil, literalDecimal_exponent htake, exponentValue_digits, hone, hnil,
      List.length_nil, Int.natCast_zero, Int.sub_zero]
  · have hmark : ∀ c, ('e' :: (if n < 0 then '-' else '+') ::
        Nat.toDigits 10 n.natAbs).head? = some c → c.isDigit = false := by
      intro c hc
      cases hc
      rfl
    rw [List.append_assoc, List.cons_append, literalDecimal_point htake hdrop hmark,
      exponentValue_digits, List.take_append_drop]

theorem value_literalDecimal_whole (h : ∀ c ∈ digits, c.isDigit = true) :
    (literalDecimal (digits ++ ['.', '0'])).value = Nat.ofDigitChars 10 digits 0 := by
  have hzero : ∀ c ∈ ['0'], c.isDigit = true := by simp
  have hshift : Nat.ofDigitChars 10 (digits ++ ['0']) 0 = 10 * Nat.ofDigitChars 10 digits 0 := by
    rw [Nat.ofDigitChars_append]
    rfl
  rw [literalDecimal_fraction h hzero, hshift, Decimal.value, List.length_singleton]
  push_cast
  rw [zpow_neg, zpow_one]
  field_simp

theorem value_literalDecimal (d : Decimal) : (literalDecimal (decimalText d)).value = d.value := by
  have hdigits : ∀ c ∈ Nat.toDigits 10 d.digits, c.isDigit = true := isDigit_of_mem_toDigits
  have hlength : 0 < (Nat.toDigits 10 d.digits).length := Nat.length_toDigits_pos
  have hvalue : Nat.ofDigitChars 10 (Nat.toDigits 10 d.digits) 0 = d.digits :=
    Nat.ofDigitChars_ten_toDigits
  have hlead : d.leading = d.exponent + (Nat.toDigits 10 d.digits).length - 1 := rfl
  have hexact : ∀ e, e = d.exponent → Decimal.value ⟨d.digits, e⟩ = d.value := by
    rintro e rfl
    rfl
  unfold decimalText
  dsimp only
  generalize d.leading = lead at hlead ⊢
  generalize Nat.toDigits 10 d.digits = digits at *
  -- Every form has the digits of the decimal; its exponent is where the point stands.
  split
  · rw [literalDecimal_scientific hdigits, hvalue]
    apply hexact
    rw [List.length_drop]
    omega
  · split
    · next hpos =>
      have hwhole : ∀ c ∈ digits ++ zeros d.exponent.natAbs, c.isDigit = true := by
        intro c hc
        rcases List.mem_append.1 hc with hc | hc
        · exact hdigits c hc
        · exact isDigit_of_mem_zeros c hc
      have hexp : d.exponent = (d.exponent.natAbs : Int) := by omega
      rw [value_literalDecimal_whole hwhole, Nat.ofDigitChars_append, hvalue, zeros,
        Nat.ofDigitChars_replicate_zero, Decimal.value]
      conv_rhs => rw [hexp, zpow_natCast]
      push_cast
      rw [mul_comm]
    · split
      · have htake : ∀ c ∈ digits.take (lead.natAbs + 1), c.isDigit = true := fun c hc =>
          hdigits c (List.mem_of_mem_take hc)
        have hdrop : ∀ c ∈ digits.drop (lead.natAbs + 1), c.isDigit = true := fun c hc =>
          hdigits c (List.mem_of_mem_drop hc)
        rw [literalDecimal_fraction htake hdrop, List.take_append_drop, hvalue]
        apply hexact
        rw [List.length_drop]
        omega
      · have hone : ∀ c ∈ zeros 1, c.isDigit = true := isDigit_of_mem_zeros
        have hfraction : ∀ c ∈ zeros (lead.natAbs - 1) ++ digits, c.isDigit = true := by
          intro c hc
          rcases List.mem_append.1 hc with hc | hc
          · exact isDigit_of_mem_zeros c hc
          · exact hdigits c hc
        refine (congrArg Decimal.value (literalDecimal_fraction hone hfraction)).trans ?_
        rw [ofDigitChars_zeros_append, ofDigitChars_zeros_append, hvalue]
        apply hexact
        rw [List.length_append, zeros, List.length_replicate]
        omega

end

def isNumberChar (c : Char) : Bool := c.isDigit || c ∈ ['-', '+', '.', 'e']

theorem isNumberChar_of_isDigit {c : Char} (h : c.isDigit = true) : isNumberChar c = true := by
  rw [isNumberChar, h, Bool.true_or]

/-- What a text of a magnitude is made of: digits first, a mark that no integer has, and nothing but
characters of numbers. -/
structure IsFloatText (text : List Char) : Prop where
  head : ∃ c, text.head? = some c ∧ c.isDigit = true
  mark : ∃ c ∈ text, c ∈ ['.', 'e']
  chars : ∀ c ∈ text, isNumberChar c = true

theorem isFloatText_append {digits rest : List Char} (hne : digits ≠ [])
    (hdigits : ∀ c ∈ digits, c.isDigit = true) (hmark : ∃ c ∈ rest, c ∈ ['.', 'e'])
    (hrest : ∀ c ∈ rest, isNumberChar c = true) : IsFloatText (digits ++ rest) where
  head := by
    cases digits with
    | nil => exact absurd rfl hne
    | cons d digits => exact ⟨d, rfl, hdigits d (by simp)⟩
  mark := by
    obtain ⟨c, hc, hkind⟩ := hmark
    exact ⟨c, List.mem_append_right _ hc, hkind⟩
  chars := by
    intro c hc
    rcases List.mem_append.1 hc with hc | hc
    · exact isNumberChar_of_isDigit (hdigits c hc)
    · exact hrest c hc

theorem isFloatText_decimalText (d : Decimal) : IsFloatText (decimalText d) := by
  have hdigits : ∀ c ∈ Nat.toDigits 10 d.digits, c.isDigit = true := isDigit_of_mem_toDigits
  have hne : Nat.toDigits 10 d.digits ≠ [] := Nat.toDigits_ne_nil
  unfold decimalText
  dsimp only
  generalize d.leading = lead
  generalize Nat.toDigits 10 d.digits = digits at *
  have htake : ∀ n, ∀ c ∈ digits.take n, c.isDigit = true := fun n c hc =>
    hdigits c (List.mem_of_mem_take hc)
  have hdrop : ∀ n, ∀ c ∈ digits.drop n, isNumberChar c = true := fun n c hc =>
    isNumberChar_of_isDigit (hdigits c (List.mem_of_mem_drop hc))
  have hfirst : ∀ n, digits.take (n + 1) ≠ [] := fun n hnil => by
    simp [hne] at hnil
  have hzeros : ∀ n, ∀ c ∈ zeros n, isNumberChar c = true := fun n c hc =>
    isNumberChar_of_isDigit (isDigit_of_mem_zeros c hc)
  split
  · rw [List.append_assoc]
    apply isFloatText_append (hfirst 0) (htake 1)
    · exact ⟨'e', by simp, by simp⟩
    · intro c hc
      rw [List.mem_append, List.mem_cons, List.mem_cons] at hc
      rcases hc with hc | rfl | rfl | hc
      · split at hc
        · cases hc
        · rcases List.mem_cons.1 hc with rfl | hc
          · rfl
          · exact hdrop 1 c hc
      · rfl
      · split <;> rfl
      · exact isNumberChar_of_isDigit (isDigit_of_mem_toDigits c hc)
  · split
    · rw [List.append_assoc]
      apply isFloatText_append hne hdigits
      · exact ⟨'.', by simp, by simp⟩
      · intro c hc
        rw [List.mem_append, List.mem_pair] at hc
        rcases hc with hc | rfl | rfl
        · exact hzeros _ c hc
        · rfl
        · rfl
    · split
      · apply isFloatText_append (hfirst _) (htake _)
        · exact ⟨'.', by simp, by simp⟩
        · intro c hc
          rcases List.mem_cons.1 hc with rfl | hc
          · rfl
          · exact hdrop _ c hc
      · have hsplit : '0' :: '.' :: zeros (lead.natAbs - 1) ++ digits =
            ['0'] ++ '.' :: (zeros (lead.natAbs - 1) ++ digits) := rfl
        rw [hsplit]
        apply isFloatText_append (by simp) (by simp)
        · exact ⟨'.', by simp, by simp⟩
        · intro c hc
          rw [List.mem_cons, List.mem_append] at hc
          rcases hc with rfl | hc | hc
          · rfl
          · exact hzeros _ c hc
          · exact isNumberChar_of_isDigit (hdigits c hc)

def magnitudeText (units : Nat) : List Char :=
  if units = 0 then ['0', '.', '0'] else decimalText (Binary64.shortest units)

theorem isFloatText_magnitudeText (units : Nat) : IsFloatText (magnitudeText units) := by
  unfold magnitudeText
  split
  · constructor
    · exact ⟨'0', rfl, rfl⟩
    · exact ⟨'.', by simp, by simp⟩
    · simp [isNumberChar]
  · exact isFloatText_decimalText _

theorem readsBack_magnitudeText (units : Nat) :
    Binary64.ReadsBack units (literalDecimal (magnitudeText units)).value := by
  unfold magnitudeText
  split
  · next hzero =>
    subst hzero
    have hvalue : (literalDecimal ['0', '.', '0']).value = 0 := zero_mul _
    rw [hvalue]
    constructor
    · rw [zero_mul]
      exact le_refl _
    · rw [zero_mul]
      exact Nat.cast_nonneg _
    · intro hodd
      cases hodd
  · next hne =>
    rw [value_literalDecimal]
    exact Binary64.readsBack_shortest (Nat.pos_of_ne_zero hne)

/-- What the number type keeps of a number: a float has a magnitude of the format. -/
def Valid : Number → Prop
  | integer _ => True
  | float x => Binary64.Representable x.units

theorem sign_inj {a b : Bool} {s t : List Char} (hs : s.head? ≠ some '-') (ht : t.head? ≠ some '-')
    (h : (if a then ['-'] else []) ++ s = (if b then ['-'] else []) ++ t) : a = b ∧ s = t := by
  cases a with
  | true =>
    cases b with
    | true => exact ⟨rfl, List.append_cancel_left h⟩
    | false => exact absurd (congrArg List.head? h).symm ht
  | false =>
    cases b with
    | true => exact absurd (congrArg List.head? h) hs
    | false => exact ⟨rfl, h⟩

theorem IsFloatText.head_ne {text : List Char} (h : IsFloatText text) : text.head? ≠ some '-' := by
  intro hminus
  obtain ⟨c, hc, hdigit⟩ := h.head
  rw [hminus] at hc
  cases hc
  cases hdigit

theorem floatText_eq (x : Binary64) :
    floatText x = (if x.negative then ['-'] else []) ++ magnitudeText x.units := rfl

theorem intText_eq (n : Int) :
    intText n = (if decide (n < 0) then ['-'] else []) ++ Nat.toDigits 10 n.natAbs := by
  unfold intText
  by_cases hn : n < 0
  · simp [hn]
  · simp [hn]

theorem floatText_inj {x y : Binary64} (hx : Binary64.Representable x.units)
    (hy : Binary64.Representable y.units) (h : floatText x = floatText y) : x = y := by
  rw [floatText_eq, floatText_eq] at h
  obtain ⟨hsign, htext⟩ := sign_inj (isFloatText_magnitudeText _).head_ne
    (isFloatText_magnitudeText _).head_ne h
  have hown := readsBack_magnitudeText x.units
  rw [htext] at hown
  have hunits := Binary64.eq_of_readsBack hx.1 hy.1 hown (readsBack_magnitudeText y.units)
  cases x
  cases y
  cases hsign
  cases hunits
  rfl

theorem intText_inj {m n : Int} (h : intText m = intText n) : m = n := by
  rw [intText_eq, intText_eq] at h
  obtain ⟨hsign, hdigits⟩ := sign_inj (head?_toDigits_ne_minus _) (head?_toDigits_ne_minus _) h
  have habs : m.natAbs = n.natAbs := toDigits_inj hdigits
  have hsign : m < 0 ↔ n < 0 := by simpa using hsign
  omega

theorem intText_ne_floatText (n : Int) (x : Binary64) : intText n ≠ floatText x := by
  intro h
  rw [intText_eq, floatText_eq] at h
  have htext := isFloatText_magnitudeText x.units
  obtain ⟨-, hdigits⟩ := sign_inj (head?_toDigits_ne_minus _) htext.head_ne h
  obtain ⟨c, hc, hmark⟩ := htext.mark
  rw [← hdigits] at hc
  have hdigit := isDigit_of_mem_toDigits c hc
  rw [List.mem_pair] at hmark
  rcases hmark with rfl | rfl
  · cases hdigit
  · cases hdigit

theorem text_inj {x y : Number} (hx : x.Valid) (hy : y.Valid) (h : x.text = y.text) : x = y := by
  cases x with
  | integer m =>
    cases y with
    | integer n => rw [intText_inj h]
    | float y => exact absurd h (intText_ne_floatText m y)
  | float x =>
    cases y with
    | integer n => exact absurd h.symm (intText_ne_floatText n x)
    | float y => rw [floatText_inj hx hy h]

theorem text_ne_nil (x : Number) : x.text ≠ [] := by
  intro hnil
  cases x with
  | integer n =>
    rw [text, intText_eq] at hnil
    exact Nat.toDigits_ne_nil (List.append_eq_nil_iff.1 hnil).2
  | float x =>
    rw [text, floatText_eq] at hnil
    obtain ⟨c, hc, -⟩ := (isFloatText_magnitudeText x.units).head
    rw [(List.append_eq_nil_iff.1 hnil).2] at hc
    cases hc

theorem isNumberChar_of_mem_text (x : Number) : ∀ c ∈ x.text, isNumberChar c = true := by
  have hsigned : ∀ (a : Bool) (s : List Char), (∀ c ∈ s, isNumberChar c = true) →
      ∀ c ∈ (if a then ['-'] else []) ++ s, isNumberChar c = true := by
    intro a s hs c hc
    rcases List.mem_append.1 hc with hc | hc
    · split at hc
      · rw [List.mem_singleton.1 hc]
        rfl
      · cases hc
    · exact hs c hc
  cases x with
  | integer n =>
    rw [text, intText_eq]
    exact hsigned _ _ fun c hc => isNumberChar_of_isDigit (isDigit_of_mem_toDigits c hc)
  | float x => exact hsigned _ _ (isFloatText_magnitudeText x.units).chars

theorem text_append_inj {x y : Number} {rest rest' : List Char} (hx : x.Valid) (hy : y.Valid)
    (hrest : Follows rest) (hrest' : Follows rest') (h : x.text ++ rest = y.text ++ rest') :
    x = y ∧ rest = rest' := by
  have hspan : ∀ (z : Number) {r : List Char}, Follows r →
      (z.text ++ r).takeWhile isNumberChar = z.text := by
    intro z r hr
    rw [List.takeWhile_append_of_pos (isNumberChar_of_mem_text z)]
    cases r with
    | nil => simp
    | cons c r =>
      have hc : isNumberChar c = false := by
        rcases hr with rfl | rfl | rfl <;> rfl
      simp [hc]
  have htext : x.text = y.text := by
    rw [← hspan x hrest, h, hspan y hrest']
  rw [htext] at h
  exact ⟨text_inj hx hy htext, List.append_cancel_left h⟩

end TablePlanner.Json.Number
