import TablePlanner.Calendar.Layout
import TablePlanner.Proofs.Json.NumberText
import TablePlanner.Proofs.Text.Trimmed

/-! Dates are read back from their text item by item. Whatever is read as a date exists and has a
separator behind its first character. -/
namespace TablePlanner
open Json

namespace Date
variable {width n : Nat}

theorem isDigit_of_mem_padded : ∀ c ∈ padded width n, c.isDigit = true := by
  intro c hc
  rcases List.mem_append.1 hc with hc | hc
  · exact Number.isDigit_of_mem_zeros c hc
  · exact Document.isDigit_of_mem_toDigits c hc

theorem ofDigitChars_padded : Nat.ofDigitChars 10 (padded width n) 0 = n :=
  (Number.ofDigitChars_zeros_append _ _).trans Nat.ofDigitChars_ten_toDigits

theorem length_padded (hwidth : 0 < width) (h : n < 10 ^ width) :
    (padded width n).length = width := by
  have hlength := (Nat.length_toDigits_le_iff (by decide) hwidth).2 h
  rw [padded, List.length_append, List.length_replicate, Nat.sub_add_cancel hlength]

theorem padded_ne_nil : padded width n ≠ [] := by simp [padded, Nat.toDigits_ne_nil]

theorem exists_padded (width n : Nat) :
    ∃ d digits, padded width n = d :: digits ∧ d.isDigit = true := by
  obtain ⟨d, digits, hd⟩ := List.exists_cons_of_ne_nil (@padded_ne_nil width n)
  exact ⟨d, digits, hd, isDigit_of_mem_padded d (hd ▸ List.mem_cons_self)⟩

theorem isBlank_of_mem_padded : ∀ c ∈ padded width n, Text.isBlank c = false := fun c hc =>
  Text.isBlank_of_isDigit (isDigit_of_mem_padded c hc)

theorem yearText_ne_nil {year : Int} : yearText year ≠ [] := by
  unfold yearText
  split_ifs
  · exact List.cons_ne_nil _ _
  · exact List.cons_ne_nil _ _
  · exact padded_ne_nil

theorem isBlank_of_mem_yearText {year : Int} : ∀ c ∈ yearText year, Text.isBlank c = false := by
  unfold yearText
  split_ifs
  · exact List.forall_mem_cons.2 ⟨by decide, isBlank_of_mem_padded⟩
  · exact List.forall_mem_cons.2 ⟨by decide, isBlank_of_mem_padded⟩
  · exact isBlank_of_mem_padded

theorem Valid.lt {d : Date} (h : d.Valid) : d.month < 100 ∧ d.day < 100 := by
  obtain ⟨-, -, -, hmonth, -, hday⟩ := h
  have hdays : daysIn d.year d.month ≤ 31 := by
    unfold daysIn
    split_ifs <;> decide
  omega

end Date

namespace Calendar
open Date
variable {c s : Char} {cs rest : List Char} {width limit n : Nat} {y : Int} {d : Date}
  {f g : Fields} {item : Item} {items layout : Layout}

/-- No digit stands at the front of a text, so a number before it ends there. -/
def Ends (rest : List Char) : Prop := ∀ c, rest.head? = some c → c.isDigit = false

theorem ends_nil : Ends [] := nofun

theorem ends_cons (h : c.isDigit = false) (cs : List Char) : Ends (c :: cs) := by
  rintro _ ⟨⟩
  exact h

theorem readNumber_padded (hlength : (padded width n).length ≤ limit) (hrest : Ends rest) :
    readNumber limit (padded width n ++ rest) = some (n, rest) := by
  have hend : Ends (rest.take (limit - (padded width n).length)) := by
    intro c hc
    rw [List.head?_take] at hc
    split at hc
    · cases hc
    · exact hrest c hc
  have hdigits : ((padded width n ++ rest).take limit).takeWhile Char.isDigit = padded width n := by
    rw [List.take_append, List.take_of_length_le hlength]
    exact (Document.span_digits isDigit_of_mem_padded hend).1
  simp [readNumber, hdigits, padded_ne_nil, ofDigitChars_padded]

theorem readFixed_padded (hwidth : 0 < width) (h : n < 10 ^ width) (rest : List Char) :
    readFixed width (padded width n ++ rest) = some (n, rest) := by
  have hlength := length_padded hwidth h
  have hall : (padded width n).all Char.isDigit = true := List.all_eq_true.2 isDigit_of_mem_padded
  simp only [readFixed, List.take_left' hlength, List.drop_left' hlength, hlength, hall, and_self,
    if_true, ofDigitChars_padded]

theorem readYear_of_isDigit (h : c.isDigit = true) (cs : List Char) :
    readYear (c :: cs) = (readNumber 4 (c :: cs)).map fun (n, rest) => ((n : Int), rest) := by
  unfold readYear
  split
  · simp_all
  · simp_all
  · rfl

theorem readYear_yearText (hrest : Ends rest) : readYear (yearText y ++ rest) = some (y, rest) := by
  have hsigned : readNumber (padded 4 y.natAbs ++ rest).length (padded 4 y.natAbs ++ rest) =
      some (y.natAbs, rest) := by
    refine readNumber_padded ?_ hrest
    simp
  unfold yearText
  split
  · have hy : -(y.natAbs : Int) = y := by omega
    simp only [List.cons_append, readYear, hsigned, Option.map_some, hy]
  have hy : (y.natAbs : Int) = y := by omega
  split
  · simp only [List.cons_append, readYear, hsigned, Option.map_some, hy]
  · have hlength : (padded 4 y.natAbs).length = 4 := length_padded (by decide) (by omega)
    have hread := readNumber_padded hlength.le hrest
    obtain ⟨d, digits, hd, hdigit⟩ := exists_padded 4 y.natAbs
    rw [hd, List.cons_append] at hread ⊢
    simp only [readYear_of_isDigit hdigit, hread, Option.map_some, hy]

theorem skipBlanks_append (hne : cs ≠ []) (h : ∀ c ∈ cs, Text.isBlank c = false) :
    Text.skipBlanks (cs ++ rest) = cs ++ rest := by
  refine Text.skipBlanks_eq_self fun c hc => h c (List.mem_of_head? ?_)
  rwa [List.head?_append_of_ne_nil _ hne] at hc

/-- The number of an item or the character that it stands for; a space is written as one blank. -/
def Item.text (f : Fields) : Item → List Char
  | .year => yearText f.year
  | .month => padded 2 f.month
  | .day => padded 2 f.day
  | .hour => padded 2 f.hour
  | .minute => padded 2 f.minute
  | .second => padded 2 f.second
  | .literal c => [c]
  | .space => [' ']

def Layout.text (layout : Layout) (f : Fields) : List Char := layout.flatMap (Item.text f)

def Item.fill (f g : Fields) : Item → Fields
  | .year => { g with year := f.year }
  | .month => { g with month := f.month }
  | .day => { g with day := f.day }
  | .hour => { g with hour := f.hour }
  | .minute => { g with minute := f.minute }
  | .second => { g with second := f.second }
  | .literal _ => g
  | .space => g

def Layout.fill (f g : Fields) (layout : Layout) : Fields := layout.foldl (Item.fill f) g

def Fields.date (f : Fields) : Date := ⟨f.year, f.month, f.day⟩

/-- The numbers are a date of the calendar and a time of day. -/
structure Fields.Real (f : Fields) : Prop where
  date : f.date.Valid
  hour : f.hour < 24
  minute : f.minute < 60
  second : f.second ≤ 60

/-- An item ends before a text: a number has no digit behind it and a space no blank. -/
def Item.Stops (rest : List Char) : Item → Prop
  | .literal _ => True
  | .space => ∀ c, rest.head? = some c → Text.isBlank c = false
  | _ => Ends rest

def Layout.Stops (f : Fields) (rest : List Char) : Layout → Prop
  | [] => True
  | item :: items => item.Stops (Layout.text items f ++ rest) ∧ Layout.Stops f rest items

theorem readNumber_two (h : n < 100) (hrest : Ends rest) :
    readNumber 2 (Text.skipBlanks (padded 2 n ++ rest)) = some (n, rest) := by
  rw [skipBlanks_append padded_ne_nil isBlank_of_mem_padded]
  exact readNumber_padded (length_padded (by decide) h).le hrest

theorem readLiteral_self (c : Char) (cs : List Char) : readLiteral c (c :: cs) = some cs :=
  if_pos rfl

theorem readLiteral_eq_none (h : cs.head? ≠ some c) : readLiteral c cs = none := by
  cases cs with
  | nil => rfl
  | cons d cs => exact if_neg fun hd => h (congrArg some hd)

theorem Fields.Real.lt (hf : f.Real) :
    f.month < 100 ∧ f.day < 100 ∧ f.hour < 100 ∧ f.minute < 100 ∧ f.second < 100 := by
  obtain ⟨hmonth, hday⟩ := hf.date.lt
  have hhour := hf.hour
  have hminute := hf.minute
  have hsecond := hf.second
  exact ⟨hmonth, hday, by omega, by omega, by omega⟩

theorem readItem_text (hf : f.Real) (hrest : item.Stops rest) :
    readItem item g (item.text f ++ rest) = some (item.fill f g, rest) := by
  obtain ⟨hmonth, hday, hhour, hminute, hsecond⟩ := hf.lt
  cases item with
  | year =>
    simp only [readItem, Item.text, skipBlanks_append yearText_ne_nil isBlank_of_mem_yearText,
      readYear_yearText hrest, Option.map_some, Item.fill]
  | month =>
    simp only [readItem, Item.text, readNumber_two hmonth hrest, Option.map_some, Item.fill]
  | day => simp only [readItem, Item.text, readNumber_two hday hrest, Option.map_some, Item.fill]
  | hour => simp only [readItem, Item.text, readNumber_two hhour hrest, Option.map_some, Item.fill]
  | minute =>
    simp only [readItem, Item.text, readNumber_two hminute hrest, Option.map_some, Item.fill]
  | second =>
    simp only [readItem, Item.text, readNumber_two hsecond hrest, Option.map_some, Item.fill]
  | literal c =>
    simp only [readItem, Item.text, List.singleton_append, readLiteral_self, Option.map_some,
      Item.fill]
  | space =>
    have hskip : Text.skipBlanks (' ' :: rest) = rest := Text.skipBlanks_eq_self hrest
    simp only [readItem, Item.text, List.singleton_append, hskip, Item.fill]

theorem readItems_cons (h : readItem item f cs = some (g, rest)) :
    readItems (item :: items) f cs = readItems items g rest := by
  rw [readItems, h]

/-- A layout reads its own text item by item. -/
theorem readItems_text (hf : f.Real) (h : layout.Stops f rest) (items : Layout) :
    readItems (layout ++ items) g (layout.text f ++ rest) =
      readItems items (layout.fill f g) rest := by
  induction layout generalizing g with
  | nil => rfl
  | cons item layout ih =>
    have hread := readItem_text (g := g) hf h.1
    rw [← List.append_assoc] at hread
    exact (readItems_cons hread).trans (ih h.2)

theorem readItems_literal_eq_none (h : cs.head? ≠ some c) :
    readItems (.literal c :: items) f cs = none := by
  rw [readItems, readItem, readLiteral_eq_none h, Option.map_none]

theorem date?_eq_none (h : readItems layout .blank cs = none) : layout.date? cs = none := by
  rw [Layout.date?, h]

def timeLayouts : List Layout := [[], .space :: timeItems, .literal 'T' :: timeItems]

theorem mem_timeLayouts : items ∈ timeLayouts ↔
    items = [] ∨ items = .space :: timeItems ∨ items = .literal 'T' :: timeItems := by
  simp [timeLayouts]

theorem exists_dateItems (h : layout ∈ layouts) :
    ∃ s ∈ ['-', '/', '.'], ∃ items ∈ timeLayouts, layout = dateItems s ++ items := by
  simp only [layouts, List.mem_cons, List.not_mem_nil, or_false] at h
  rcases h with rfl | rfl | rfl | rfl | rfl | rfl
  · exact ⟨'-', by simp, _, by simp [timeLayouts], rfl⟩
  · exact ⟨'-', by simp, _, by simp [timeLayouts], rfl⟩
  · exact ⟨'/', by simp, _, by simp [timeLayouts], rfl⟩
  · exact ⟨'-', by simp, [], by simp [timeLayouts], rfl⟩
  · exact ⟨'/', by simp, [], by simp [timeLayouts], rfl⟩
  · exact ⟨'.', by simp, [], by simp [timeLayouts], rfl⟩

theorem valid_of_date? (h : f.date? = some d) : d.Valid := by
  simp only [Fields.date?, Option.ite_none_right_eq_some, Option.some.injEq] at h
  obtain ⟨⟨hvalid, -⟩, rfl⟩ := h
  exact hvalid

theorem valid_of_layout (h : layout.date? cs = some d) : d.Valid := by
  unfold Layout.date? at h
  split at h
  · exact valid_of_date? h
  · cases h

theorem valid_of_timestamp? (h : timestamp? cs = some d) : d.Valid := by
  unfold timestamp? at h
  -- The date is read in five steps, and the mark behind it splits the rest.
  iterate 6 obtain ⟨_, -, h⟩ := Option.bind_eq_some_iff.1 h
  split at h
  · cases h
  iterate 7 obtain ⟨_, -, h⟩ := Option.bind_eq_some_iff.1 h
  exact valid_of_date? (Option.ite_none_right_eq_some.1 h).2

theorem bind_of_some {α β : Type} {x : Option α} {a : α} {next : α → Option β} {out : Option β}
    (hx : x = some a) (hnext : next a = out) : x >>= next = out := by
  rw [hx]
  exact hnext

theorem bind_of_none {α β : Type} {x : Option α} {next : α → Option β} (hx : x = none) :
    x >>= next = none := by
  rw [hx]
  rfl

theorem tail_suffix_tail {cs text : List Char} (h : cs <:+ text) : cs.tail <:+ text.tail := by
  obtain ⟨front, rfl⟩ := h
  cases front with
  | nil => exact List.suffix_rfl
  | cons c front => exact (List.tail_suffix cs).trans (List.suffix_append front cs)

theorem suffix_of_readNumber (h : readNumber limit cs = some (n, rest)) : rest <:+ cs.tail := by
  simp only [readNumber, Option.ite_none_left_eq_some, Option.some.injEq, Prod.mk.injEq] at h
  obtain ⟨hne, -, rfl⟩ := h
  rw [← List.drop_one]
  refine List.drop_suffix_drop_left cs (List.length_pos_of_ne_nil ?_)
  simpa using hne

theorem suffix_of_readYear (h : readYear cs = some (y, rest)) : rest <:+ cs.tail := by
  unfold readYear at h
  split at h <;>
    simp only [Option.map_eq_some_iff, Prod.exists, Prod.mk.injEq] at h <;>
    obtain ⟨_, _, hread, -, rfl⟩ := h
  · exact (suffix_of_readNumber hread).trans (List.tail_suffix _)
  · exact (suffix_of_readNumber hread).trans (List.tail_suffix _)
  · exact suffix_of_readNumber hread

theorem suffix_of_readItem_year (h : readItem .year f cs = some (g, rest)) : rest <:+ cs.tail := by
  simp only [readItem, Option.map_eq_some_iff, Prod.exists, Prod.mk.injEq] at h
  obtain ⟨_, _, hread, -, rfl⟩ := h
  exact (suffix_of_readYear hread).trans (tail_suffix_tail (List.dropWhile_suffix _))

theorem readItems_dateItems_eq_none (h : s ∉ cs.tail) :
    readItems (dateItems s ++ items) f cs = none := by
  cases hyear : readItem .year f cs with
  | none => rw [dateItems, List.cons_append, readItems, hyear]
  | some read =>
    rw [dateItems, List.cons_append, readItems_cons hyear]
    exact readItems_literal_eq_none fun hs =>
      h ((suffix_of_readItem_year hyear).subset (List.mem_of_head? hs))

theorem timestamp?_eq_none (h : '-' ∉ cs.tail) : timestamp? cs = none := by
  refine Option.bind_eq_none_iff.2 ?_
  rintro ⟨year, rest⟩ hyear
  simp only [readFixed, Option.ite_none_right_eq_some, Option.some.injEq, Prod.mk.injEq] at hyear
  obtain ⟨-, -, rfl⟩ := hyear
  have hhead : (cs.drop 4).head? ≠ some '-' := by
    intro hs
    have hmem : '-' ∈ cs.tail.drop 3 := by
      rw [List.drop_tail]
      exact List.mem_of_head? hs
    exact h (List.mem_of_mem_drop hmem)
  dsimp only
  rw [readLiteral_eq_none hhead]
  rfl

end Calendar

open Calendar

namespace Date
variable {d : Date} {s : String}

theorem ofText?_eq_none (h : ∀ c ∈ ['-', '/', '.'], c ∉ (Text.trim s.toList).tail) :
    Date.ofText? s = none := by
  rw [Date.ofText?, timestamp?_eq_none (h '-' (by simp)), List.findSome?_eq_none_iff]
  intro layout hlayout
  obtain ⟨c, hc, items, -, rfl⟩ := exists_dateItems hlayout
  exact date?_eq_none (readItems_dateItems_eq_none (h c hc))

theorem valid_of_ofText? (h : Date.ofText? s = some d) : d.Valid := by
  simp only [Date.ofText?] at h
  split at h
  · next htimestamp =>
    cases h
    exact valid_of_timestamp? htimestamp
  · obtain ⟨layout, -, hlayout⟩ := List.exists_of_findSome?_eq_some h
    exact valid_of_layout hlayout

end Date
end TablePlanner
