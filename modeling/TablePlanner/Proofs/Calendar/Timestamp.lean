import TablePlanner.Proofs.Calendar.Layouts

namespace TablePlanner

namespace Calendar
open Date
variable {f : Fields} {mark : Char} {digits rest : List Char}

/-- The offset of a timestamp: a letter for none, or a sign with hours and minutes. -/
inductive Offset where
  | none (letter : Char)
  | shift (sign : Char) (hours minutes : Nat)
deriving DecidableEq, Repr

namespace Offset

/-- The minus sign is a hyphen or the character U+2212. An offset is shorter than a day. -/
def Valid : Offset → Prop
  | none letter => letter ∈ ['Z', 'z']
  | shift sign hours minutes => sign ∈ ['+', '-', '\u2212'] ∧ hours < 24 ∧ minutes < 60

instance (offset : Offset) : Decidable offset.Valid :=
  match offset with
  | none _ => inferInstanceAs (Decidable (_ ∈ _))
  | shift _ _ _ => inferInstanceAs (Decidable (_ ∧ _))

def text : Offset → List Char
  | none letter => [letter]
  | shift sign hours minutes => sign :: (padded 2 hours ++ ':' :: padded 2 minutes)

variable {offset : Offset} {c : Char}

theorem of_mem_starts (hc : c ∈ ['Z', 'z'] ++ ['+', '-', '\u2212']) :
    c.isDigit = false ∧ c ≠ '.' ∧ Text.isBlank c = false := by
  simp only [List.cons_append, List.nil_append, List.mem_cons, List.not_mem_nil, or_false] at hc
  rcases hc with rfl | rfl | rfl | rfl | rfl <;> decide

theorem exists_text (h : offset.Valid) :
    ∃ c cs, offset.text = c :: cs ∧ c.isDigit = false ∧ c ≠ '.' := by
  cases offset with
  | none letter =>
    obtain ⟨hdigit, hpoint, -⟩ := of_mem_starts (List.mem_append_left _ h)
    exact ⟨letter, [], rfl, hdigit, hpoint⟩
  | shift sign _ _ =>
    obtain ⟨hdigit, hpoint, -⟩ := of_mem_starts (List.mem_append_right _ h.1)
    exact ⟨sign, _, rfl, hdigit, hpoint⟩

theorem isBlank_of_mem_text (h : offset.Valid) : ∀ c ∈ offset.text, Text.isBlank c = false := by
  cases offset with
  | none letter =>
    obtain ⟨-, -, hblank⟩ := of_mem_starts (List.mem_append_left _ h)
    exact List.forall_mem_singleton.2 hblank
  | shift sign hours minutes =>
    obtain ⟨-, -, hblank⟩ := of_mem_starts (List.mem_append_right _ h.1)
    simp only [text, List.forall_mem_cons, List.forall_mem_append]
    exact ⟨hblank, isBlank_of_mem_padded, by decide, isBlank_of_mem_padded⟩

theorem readOffset_text (h : offset.Valid) : readOffset offset.text = some [] := by
  cases offset with
  | none letter =>
    have hletter : letter = 'Z' ∨ letter = 'z' := by simpa [Valid] using h
    exact if_pos hletter
  | shift sign hours minutes =>
    obtain ⟨hsign, hhours, hminutes⟩ := h
    have hletter : ¬(sign = 'Z' ∨ sign = 'z') := by
      rintro (rfl | rfl)
      · exact absurd hsign (by decide)
      · exact absurd hsign (by decide)
    have hsign' : sign = '+' ∨ sign = '-' ∨ sign = '\u2212' := by simpa using hsign
    rw [text, readOffset, if_neg hletter, if_pos hsign']
    refine bind_of_some (readFixed_two (by omega) _) ?_
    refine bind_of_some (readLiteral_self _ _) ?_
    have hread := readFixed_two (show minutes < 100 by omega) []
    rw [List.append_nil] at hread
    refine bind_of_some hread ?_
    exact if_pos ⟨hhours, hminutes⟩

end Offset

/-- A fraction of a second is shown by a point and its digits, or left out. -/
def fractionText : List Char → List Char
  | [] => []
  | digits => '.' :: digits

theorem readFraction_text (hdigits : ∀ c ∈ digits, c.isDigit = true) (hrest : Ends rest)
    (hpoint : rest.head? ≠ some '.') : readFraction (fractionText digits ++ rest) = some rest := by
  cases digits with
  | nil =>
    cases rest with
    | nil => rfl
    | cons c rest =>
      have hc : c ≠ '.' := fun heq => hpoint (congrArg some heq)
      simp [fractionText, readFraction, hc]
  | cons d digits =>
    have hdrop : (d :: digits ++ rest).dropWhile Char.isDigit = rest :=
      (Json.Document.span_digits hdigits hrest).2
    have hlength : rest.length < (d :: digits ++ rest).length := by
      rw [List.length_append, List.length_cons]
      omega
    rw [fractionText, List.cons_append, readFraction, hdrop]
    · exact if_pos hlength
    · exact List.cons_ne_nil _ _

def timestampText (f : Fields) (mark : Char) (digits : List Char) (offset : Offset) : List Char :=
  dateTimeText f mark (fractionText digits ++ offset.text)

variable {offset : Offset}

theorem timestamp?_timestampText (hf : f.Real) (hyear : 0 ≤ f.year ∧ f.year ≤ 9999)
    (hmark : isTimeMark mark = true) (hdigits : ∀ c ∈ digits, c.isDigit = true)
    (hoffset : offset.Valid) : timestamp? (timestampText f mark digits offset) = some f.date := by
  obtain ⟨c, cs, htext, hdigit, hpoint⟩ := offset.exists_text hoffset
  have hfraction : readFraction (fractionText digits ++ offset.text) = some offset.text := by
    refine readFraction_text hdigits ?_ ?_
    · exact htext ▸ ends_cons hdigit cs
    · exact htext ▸ fun heq => hpoint (Option.some.inj heq)
  rw [timestampText, timestamp?_dateTimeText hf hyear hmark, hfraction, Option.bind_some,
    Offset.readOffset_text hoffset]
  rfl

theorem isTight_timestampText (hoffset : offset.Valid) :
    Text.isTight (timestampText f mark digits offset) = true := by
  obtain ⟨c, cs, htext, -⟩ := offset.exists_text hoffset
  have hends : ∃ middle, timestampText f mark digits offset =
      yearText f.year ++ middle ++ offset.text := by
    refine ⟨'-' :: (padded 2 f.month ++ '-' :: (padded 2 f.day ++ mark :: (padded 2 f.hour ++
      ':' :: (padded 2 f.minute ++ ':' :: (padded 2 f.second ++ fractionText digits))))), ?_⟩
    simp [timestampText, dateTimeText_eq]
  obtain ⟨middle, hmiddle⟩ := hends
  rw [hmiddle]
  exact Text.isTight_append yearText_ne_nil (htext ▸ List.cons_ne_nil c cs) isBlank_of_mem_yearText
    (offset.isBlank_of_mem_text hoffset) middle

end Calendar

open Calendar Text

namespace Date
variable {f : Fields} {front back : List Char}

theorem ofText?_timestampText {mark : Char} {digits : List Char} {offset : Offset} (hf : f.Real)
    (hyear : 0 ≤ f.year ∧ f.year ≤ 9999) (hmark : isTimeMark mark = true)
    (hdigits : ∀ c ∈ digits, c.isDigit = true) (hoffset : offset.Valid)
    (hfront : AllBlank front) (hback : AllBlank back) : Date.ofText?
      (String.ofList (front ++ timestampText f mark digits offset ++ back)) = some f.date := by
  rw [ofText?_between_blanks hfront hback (isTight_timestampText hoffset),
    timestamp?_timestampText hf hyear hmark hdigits hoffset, Option.some_or]

/-- Every date is read from its text in each layout and from each timestamp that shows it, and a
text in a layout is neither a timestamp nor a text in another layout. -/
theorem ofText?_reads_shown_date (hf : f.Real) (hfront : AllBlank front) (hback : AllBlank back) :
    (∀ layout ∈ layouts,
      Date.ofText? (String.ofList (front ++ layout.text f ++ back)) = some f.date ∧
        timestamp? (layout.text f) = none ∧
        ∀ other ∈ layouts, other ≠ layout → other.date? (layout.text f) = none) ∧
    (0 ≤ f.year → f.year ≤ 9999 → ∀ mark digits offset, isTimeMark mark = true →
      (∀ c ∈ digits, c.isDigit = true) → offset.Valid → Date.ofText?
        (String.ofList (front ++ timestampText f mark digits offset ++ back)) = some f.date) := by
  refine ⟨fun layout hlayout => ⟨?_, ?_, ?_⟩, ?_⟩
  · exact ofText?_text hf hlayout hfront hback
  · exact timestamp?_text hf hlayout
  · exact fun other hother hne => date?_text_of_ne hf hlayout hother hne
  · exact fun hleast hgreatest mark digits offset hmark hdigits hoffset =>
      ofText?_timestampText hf ⟨hleast, hgreatest⟩ hmark hdigits hoffset hfront hback

theorem leap_second_read :
    Date.ofText? "\u3000 2024/02/29 23:59:60\t" = some ⟨2024, 2, 29⟩ ∧
      Date.ofText? "\u3000 2024-02-29t23:59:60.5-11:30\t" = some ⟨2024, 2, 29⟩ := by
  have hreal : Fields.Real ⟨2024, 2, 29, 23, 59, 60⟩ :=
    ⟨by decide, by decide, by decide, by decide⟩
  have hfront : AllBlank ['\u3000', ' '] :=
    List.forall_mem_cons.2 ⟨by decide, List.forall_mem_singleton.2 (by decide)⟩
  have hback : AllBlank ['\t'] := List.forall_mem_singleton.2 (by decide)
  have hread := ofText?_reads_shown_date hreal hfront hback
  have hslash := hread.1 (dateItems '/' ++ .space :: timeItems) (by decide)
  have hoffset := hread.2 (by decide) (by decide) 't' ['5'] (.shift '-' 11 30)
    (by decide) (List.forall_mem_singleton.2 (by decide)) (by decide)
  exact ⟨hslash.1, hoffset⟩

end Date
end TablePlanner
