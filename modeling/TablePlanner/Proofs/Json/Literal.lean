import TablePlanner.Json.Document

namespace TablePlanner.Json
open Value (escape quoted hexDigit)

/-- What can follow a value inside a text that is written without white space. -/
def Follows : List Char → Prop
  | [] => True
  | c :: _ => c = ',' ∨ c = ']' ∨ c = '\x7d'

namespace Document

def pieceOf (c : Char) : Piece :=
  if c.toNat < 0x20 ∧ c.toNat ∉ [8, 9, 10, 12, 13] then .unit c.toNat else .char c

theorem hexUnit?_control {n : Nat} (h : n < 0x20) :
    hexUnit? '0' '0' (hexDigit (n / 16)) (hexDigit (n % 16)) = some n := by
  decide +revert

theorem eq_ofNat_of_toNat {c : Char} {n : Nat} (h : c.toNat = n) : c = Char.ofNat n := by
  rw [← h, Char.ofNat_toNat]

theorem readPieces_unit {a b c d : Char} {n : Nat} (h : hexUnit? a b c d = some n)
    (cs : List Char) :
    readPieces ('\\' :: 'u' :: a :: b :: c :: d :: cs) =
      (readPieces cs).map fun q => (.unit n :: q.1, q.2) := by
  rw [readPieces, h]
  cases readPieces cs <;> rfl

theorem readPieces_short {e c : Char} (hu : e ≠ 'u') (h : shortEscape? e = some c)
    (cs : List Char) :
    readPieces ('\\' :: e :: cs) = (readPieces cs).map fun q => (.char c :: q.1, q.2) := by
  rw [readPieces.eq_3 _ _ (by simp [hu]), h]
  cases readPieces cs <;> rfl

theorem readPieces_plain {c : Char} (hq : c ≠ '"') (hb : c ≠ '\\') (hc : ¬c.toNat < 0x20)
    (cs : List Char) :
    readPieces (c :: cs) = (readPieces cs).map fun q => (.char c :: q.1, q.2) := by
  rw [readPieces.eq_4 _ _ (by simp [hb]) (by simp [hb]), if_neg hq, if_neg (by simp [hb, hc])]
  cases readPieces cs <;> rfl

theorem readPieces_escape (c : Char) (cs : List Char) :
    readPieces (escape c ++ cs) = (readPieces cs).map fun q => (pieceOf c :: q.1, q.2) := by
  unfold escape
  split
  · rename_i h
    subst h
    exact readPieces_short (by decide) rfl cs
  · rename_i hq
    split
    · rename_i h
      subst h
      exact readPieces_short (by decide) rfl cs
    · rename_i hb
      split
      · rename_i hc
        split
        case h_6 n h8 h9 h10 h12 h13 =>
          have hshort : c.toNat ∉ [8, 9, 10, 12, 13] := by
            simpa using ⟨h8, h9, h10, h12, h13⟩
          have hp : pieceOf c = .unit c.toNat := if_pos ⟨hc, hshort⟩
          rw [hp]
          exact readPieces_unit (hexUnit?_control hc) cs
        all_goals
          rename_i h
          obtain rfl := eq_ofNat_of_toNat h
          exact readPieces_short (by decide) rfl cs
      · rename_i hc
        have hp : pieceOf c = .char c := by simp [pieceOf, hc]
        rw [hp]
        exact readPieces_plain hq hb hc cs

theorem readPieces_quoted (cs rest : List Char) :
    readPieces (cs.flatMap escape ++ '"' :: rest) = some (cs.map pieceOf, rest) := by
  induction cs with
  | nil => simp [readPieces]
  | cons c cs ih => simp [readPieces_escape, ih]

theorem joinPieces_pieceOf (c : Char) (ps : List Piece) :
    joinPieces (pieceOf c :: ps) = (joinPieces ps).map (c :: ·) := by
  unfold pieceOf
  split
  · rename_i h
    -- A control character lies below the surrogates, so what follows does not matter.
    have hlow : ¬0xd800 ≤ c.toNat := by omega
    have hpair : ¬0xdc00 ≤ c.toNat := by omega
    cases ps with
    | nil => simp [joinPieces, hlow]
    | cons p ps => cases p <;> simp [joinPieces, hlow, hpair]
  · simp [joinPieces]

theorem joinPieces_map_pieceOf (cs : List Char) : joinPieces (cs.map pieceOf) = some cs := by
  induction cs with
  | nil => rfl
  | cons c cs ih => simp [joinPieces_pieceOf, ih]

theorem readString_quoted (s : String) (rest : List Char) :
    readString (s.toList.flatMap escape ++ '"' :: rest) = some (some s, rest) := by
  simp [readString, readPieces_quoted, joinPieces_map_pieceOf]

theorem not_zero_of_toDigits_head {n : Nat} (h : 0 < n) : (Nat.toDigits 10 n).head? ≠ some '0' := by
  induction n using Nat.strongRecOn with
  | ind n ih =>
    rcases Nat.lt_or_ge n 10 with hlt | hge
    · have hdigit : ∀ d < 10, 0 < d → [d.digitChar].head? ≠ some '0' := by decide
      rw [Nat.toDigits_of_lt_base hlt]
      exact hdigit n hlt h
    · rw [Nat.toDigits_of_base_le (by decide) hge, List.head?_append]
      have hfirst := ih (n / 10) (by omega) (by omega)
      cases hd : Nat.toDigits 10 (n / 10) with
      | nil => exact absurd hd Nat.toDigits_ne_nil
      | cons d ds => simpa [hd] using hfirst

theorem isDigit_of_mem_toDigits {n : Nat} : ∀ d ∈ Nat.toDigits 10 n, d.isDigit = true :=
  fun _ => Nat.isDigit_of_mem_toDigits (by decide) (by decide)

theorem toDigits_inj {m n : Nat} (h : Nat.toDigits 10 m = Nat.toDigits 10 n) : m = n := by
  have hread := congrArg (Nat.ofDigitChars 10 · 0) h
  simpa only [Nat.ofDigitChars_ten_toDigits] using hread

theorem span_digits {ds rest : List Char} (hds : ∀ d ∈ ds, d.isDigit = true)
    (hrest : ∀ c, rest.head? = some c → c.isDigit = false) :
    (ds ++ rest).takeWhile Char.isDigit = ds ∧ (ds ++ rest).dropWhile Char.isDigit = rest := by
  rw [List.takeWhile_append_of_pos hds, List.dropWhile_append_of_pos hds]
  cases rest with
  | nil => simp
  | cons c cs =>
    have hc := hrest c rfl
    simp [hc]

theorem readDigits_append {ds rest : List Char} (hne : ds ≠ []) (hds : ∀ d ∈ ds, d.isDigit = true)
    (hrest : ∀ c, rest.head? = some c → c.isDigit = false) :
    readDigits (ds ++ rest) = some (ds, rest) := by
  obtain ⟨htake, hdrop⟩ := span_digits hds hrest
  simp [readDigits, htake, hdrop, hne]

theorem readWhole_of_head {cs : List Char} (h : cs.head? ≠ some '0') :
    readWhole cs = readDigits cs := by
  unfold readWhole
  split
  · simp at h
  · rfl

end Document

namespace Follows
variable {rest : List Char}

theorem not_digit (h : Follows rest) {c : Char} (hc : rest.head? = some c) :
    c.isDigit = false := by
  cases rest with
  | nil => cases hc
  | cons d cs =>
    cases hc
    rcases h with rfl | rfl | rfl <;> decide

theorem readWhole (h : Follows rest) (n : Nat) :
    Document.readWhole (Nat.toDigits 10 n ++ rest) = some (Nat.toDigits 10 n, rest) := by
  rcases Nat.eq_zero_or_pos n with rfl | hn
  · rw [Nat.toDigits_zero]
    cases rest with
    | nil => rfl
    | cons c cs =>
      have hc : c.isDigit = false := h.not_digit rfl
      simp [Document.readWhole, hc]
  · have hhead : (Nat.toDigits 10 n ++ rest).head? ≠ some '0' := by
      have hfirst := Document.not_zero_of_toDigits_head hn
      cases hd : Nat.toDigits 10 n with
      | nil => exact absurd hd Nat.toDigits_ne_nil
      | cons d ds => simpa [hd] using hfirst
    rw [Document.readWhole_of_head hhead]
    exact Document.readDigits_append Nat.toDigits_ne_nil Document.isDigit_of_mem_toDigits
      fun c hc => h.not_digit hc

theorem readFraction (h : Follows rest) : Document.readFraction rest = some ([], rest) := by
  cases rest with
  | nil => rfl
  | cons c cs => rcases h with rfl | rfl | rfl <;> rfl

theorem readExponent (h : Follows rest) : Document.readExponent rest = some ([], rest) := by
  cases rest with
  | nil => rfl
  | cons c cs => rcases h with rfl | rfl | rfl <;> rfl

end Follows

namespace Document

theorem head?_toDigits_ne_minus (n : Nat) : (Nat.toDigits 10 n).head? ≠ some '-' := by
  intro h
  have hdigit := isDigit_of_mem_toDigits '-' (List.mem_of_head? h)
  cases hdigit

theorem sign_toDigits (n : Nat) (rest : List Char) :
    (Nat.toDigits 10 n ++ rest).takeWhile (· == '-') = [] := by
  have hhead := head?_toDigits_ne_minus n
  cases hd : Nat.toDigits 10 n with
  | nil => exact absurd hd Nat.toDigits_ne_nil
  | cons d ds =>
    have hne : d ≠ '-' := by simpa [hd] using hhead
    simp [hne]

theorem readNumber_intText {rest : List Char} (h : Follows rest) (n : Int) :
    readNumber (Number.intText n ++ rest) = some (Number.intText n, rest) := by
  unfold Number.intText
  split
  · simp [readNumber, h.readWhole, h.readFraction, h.readExponent]
  · simp [readNumber, sign_toDigits, h.readWhole, h.readFraction, h.readExponent]

end Document

namespace Number

theorem ofLiteral?_intText {n : Int} (h : InRange n) :
    ofLiteral? (intText n) = some (integer n) := by
  have hspan : ∀ m : Nat, (Nat.toDigits 10 m).takeWhile Char.isDigit = Nat.toDigits 10 m ∧
      (Nat.toDigits 10 m).dropWhile Char.isDigit = [] := by
    intro m
    have hend : ∀ c, ([] : List Char).head? = some c → c.isDigit = false := by simp
    have h := Document.span_digits (Document.isDigit_of_mem_toDigits (n := m)) hend
    rwa [List.append_nil] at h
  unfold intText
  generalize hm : n.natAbs = m
  split
  · have hvalue : -(m : Int) = n := by omega
    have hne : m ≠ 0 := by omega
    simp [ofLiteral?, hspan, Nat.ofDigitChars_ten_toDigits, hvalue, h, hne]
  · have hvalue : (m : Int) = n := by omega
    have hsign : ((Nat.toDigits 10 m).head? == some '-') = false := by
      simpa using Document.head?_toDigits_ne_minus m
    simp [ofLiteral?, hsign, hspan, Nat.ofDigitChars_ten_toDigits, hvalue, h]

end Number
end TablePlanner.Json
