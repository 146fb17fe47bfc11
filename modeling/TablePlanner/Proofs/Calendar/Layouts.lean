import TablePlanner.Proofs.Calendar.Written

namespace TablePlanner

namespace Calendar
open Date
variable {c s : Char} {cs rest : List Char} {f g h : Fields} {items others layout other : Layout}

theorem text_append : Layout.text (layout ++ items) f = layout.text f ++ Layout.text items f :=
  List.flatMap_append

theorem fill_append : Layout.fill f g (layout ++ items) = items.fill f (layout.fill f g) :=
  List.foldl_append

theorem stops_append (hlayout : layout.Stops f (Layout.text items f ++ rest))
    (hitems : items.Stops f rest) : Layout.Stops f rest (layout ++ items) := by
  induction layout with
  | nil => exact hitems
  | cons item layout ih =>
    have htext : Layout.text (layout ++ items) f ++ rest =
        Layout.text layout f ++ (Layout.text items f ++ rest) := by
      rw [text_append, List.append_assoc]
    exact ⟨htext.symm ▸ hlayout.1, ih hlayout.2⟩

theorem stops_dateItems (hs : s.isDigit = false) (hrest : Ends rest) :
    (dateItems s).Stops f rest :=
  ⟨ends_cons hs _, trivial, ends_cons hs _, trivial, hrest, trivial⟩

theorem stops_timeItems : timeItems.Stops f [] :=
  ⟨ends_cons (by decide) _, trivial, ends_cons (by decide) _, trivial, ends_nil, trivial⟩

theorem timeItems_text : Layout.text timeItems f =
    padded 2 f.hour ++ ':' :: (padded 2 f.minute ++ ':' :: padded 2 f.second) := by
  simp [Layout.text, timeItems, Item.text]

theorem ends_timeLayout (hitems : items ∈ timeLayouts) : Ends (Layout.text items f) := by
  rcases mem_timeLayouts.1 hitems with rfl | rfl | rfl
  · exact ends_nil
  · exact ends_cons (by decide) _
  · exact ends_cons (by decide) _

theorem stops_timeLayout (hitems : items ∈ timeLayouts) : items.Stops f [] := by
  rcases mem_timeLayouts.1 hitems with rfl | rfl | rfl
  · trivial
  · refine ⟨fun c hc => ?_, stops_timeItems⟩
    rw [timeItems_text, List.append_assoc, List.head?_append_of_ne_nil _ padded_ne_nil] at hc
    exact isBlank_of_mem_padded c (List.mem_of_head? hc)
  · exact ⟨trivial, stops_timeItems⟩

theorem date?_of_real (hf : f.Real) : f.date? = some f.date :=
  if_pos ⟨hf.date, hf.hour, hf.minute, hf.second⟩

theorem date?_fill (hf : f.Real) (hitems : items ∈ timeLayouts) :
    (Layout.fill f .blank (dateItems s ++ items)).date? = some f.date := by
  have hdate : Layout.fill f .blank (dateItems s) = ⟨f.year, f.month, f.day, 0, 0, 0⟩ := rfl
  have htime : Layout.fill f ⟨f.year, f.month, f.day, 0, 0, 0⟩ timeItems = f := rfl
  rw [fill_append, hdate]
  rcases mem_timeLayouts.1 hitems with rfl | rfl | rfl
  · exact if_pos ⟨hf.date, Nat.zero_lt_succ _, Nat.zero_lt_succ _, Nat.zero_le _⟩
  · exact (congrArg Fields.date? htime).trans (date?_of_real hf)
  · exact (congrArg Fields.date? htime).trans (date?_of_real hf)

theorem not_isDigit_of_separator (hs : s ∈ ['-', '/', '.']) : s.isDigit = false := by
  simp only [List.mem_cons, List.not_mem_nil, or_false] at hs
  rcases hs with rfl | rfl | rfl <;> decide

theorem date?_text (hf : f.Real) (hlayout : layout ∈ layouts) :
    layout.date? (layout.text f) = some f.date := by
  obtain ⟨s, hs, items, hitems, rfl⟩ := exists_dateItems hlayout
  have hdate : (dateItems s).Stops f (Layout.text items f ++ []) := by
    rw [List.append_nil]
    exact stops_dateItems (not_isDigit_of_separator hs) (ends_timeLayout hitems)
  have hread := readItems_text (g := .blank) hf (stops_append hdate (stops_timeLayout hitems)) []
  rw [List.append_nil, List.append_nil] at hread
  rw [Layout.date?, hread]
  exact date?_fill hf hitems

theorem readItems_timeLayout_ne (hitems : items ∈ timeLayouts) (hothers : others ∈ timeLayouts)
    (hne : others ≠ items) : readItems others g (Layout.text items f) ≠ some (h, []) := by
  rcases mem_timeLayouts.1 hitems with rfl | rfl | rfl <;>
    rcases mem_timeLayouts.1 hothers with rfl | rfl | rfl
  · exact absurd rfl hne
  · rintro ⟨⟩
  · rintro ⟨⟩
  · rintro ⟨⟩
  · exact absurd rfl hne
  · rintro ⟨⟩
  · rintro ⟨⟩
  · rintro ⟨⟩
  · exact absurd rfl hne

/-- No layout reads what is written in another one. -/
theorem date?_text_of_ne (hf : f.Real) (hlayout : layout ∈ layouts) (hother : other ∈ layouts)
    (hne : other ≠ layout) : other.date? (layout.text f) = none := by
  obtain ⟨s, hs, items, hitems, rfl⟩ := exists_dateItems hlayout
  obtain ⟨s', hs', others, hothers, rfl⟩ := exists_dateItems hother
  have hdigit := not_isDigit_of_separator hs
  by_cases hsame : s' = s
  · subst hsame
    have hdate := stops_dateItems (f := f) hdigit (ends_timeLayout (f := f) hitems)
    have hread := readItems_text (g := .blank) hf hdate others
    rw [Layout.date?, text_append, hread]
    split
    · next htime =>
      have hothers' : others ≠ items := fun heq => hne (heq ▸ rfl)
      exact absurd htime (readItems_timeLayout_ne hitems hothers hothers')
    · rfl
  · have hyear : readItem .year .blank (Layout.text (dateItems s ++ items) f) =
        some ({ Fields.blank with year := f.year },
          s :: Layout.text (.month :: .literal s :: .day :: items) f) :=
      readItem_text hf (ends_cons hdigit _)
    refine date?_eq_none ((readItems_cons hyear).trans ?_)
    exact readItems_literal_eq_none fun heq => hsame (Option.some.inj heq).symm

theorem yearText_of_short (hyear : 0 ≤ f.year ∧ f.year ≤ 9999) :
    yearText f.year = padded 4 f.year.natAbs := by
  rw [yearText, if_neg (by omega), if_neg (by omega)]

theorem exists_sign (hyear : ¬(0 ≤ f.year ∧ f.year ≤ 9999)) :
    ∃ sign digits, yearText f.year = sign :: digits ∧ sign.isDigit = false := by
  unfold yearText
  split_ifs
  · exact ⟨_, _, rfl, by decide⟩
  · exact ⟨_, _, rfl, by decide⟩
  · omega

theorem readFixed_of_head (hc : c.isDigit = false) (width : Nat) (cs : List Char) :
    readFixed (width + 1) (c :: cs) = none := by
  simp [readFixed, hc]

theorem readFixed_two {n : Nat} (h : n < 100) (rest : List Char) :
    readFixed 2 (padded 2 n ++ rest) = some (n, rest) :=
  readFixed_padded (by decide) h rest

section
variable {mark : Char}

def dateTimeText (f : Fields) (mark : Char) (rest : List Char) : List Char :=
  Layout.text (dateItems '-' ++ .literal mark :: timeItems) f ++ rest

theorem dateTimeText_eq : dateTimeText f mark rest = yearText f.year ++ '-' :: (padded 2 f.month ++
    '-' :: (padded 2 f.day ++ mark :: (padded 2 f.hour ++ ':' :: (padded 2 f.minute ++
      ':' :: (padded 2 f.second ++ rest))))) := by
  simp [dateTimeText, Layout.text, dateItems, timeItems, Item.text]

theorem timestamp?_dateTimeText (hf : f.Real) (hyear : 0 ≤ f.year ∧ f.year ≤ 9999)
    (hmark : isTimeMark mark = true) : timestamp? (dateTimeText f mark rest) =
      (readFraction rest).bind fun cs => (readOffset cs).bind fun cs =>
        if cs.isEmpty then some f.date else none := by
  have hnat : (f.year.natAbs : Int) = f.year := by omega
  obtain ⟨hmonth, hday, hhour, hminute, hsecond⟩ := hf.lt
  rw [dateTimeText_eq, yearText_of_short hyear]
  refine bind_of_some (readFixed_padded (by decide) (by omega) _) ?_
  refine bind_of_some (readLiteral_self _ _) ?_
  refine bind_of_some (readFixed_two hmonth _) ?_
  refine bind_of_some (readLiteral_self _ _) ?_
  refine bind_of_some (readFixed_two hday _) ?_
  refine bind_of_some rfl ?_
  dsimp only
  rw [if_neg (by simp [hmark]), hnat]
  refine bind_of_some (readFixed_two hhour _) ?_
  refine bind_of_some (readLiteral_self _ _) ?_
  refine bind_of_some (readFixed_two hminute _) ?_
  refine bind_of_some (readLiteral_self _ _) ?_
  refine bind_of_some (readFixed_two hsecond _) ?_
  rw [← date?_of_real hf]
  rfl

end

theorem timestamp?_of_sign (hyear : ¬(0 ≤ f.year ∧ f.year ≤ 9999)) :
    timestamp? (Layout.text (.year :: items) f) = none := by
  obtain ⟨sign, digits, htext, hsign⟩ := exists_sign hyear
  rw [Layout.text, List.flatMap_cons, Item.text, htext]
  exact bind_of_none (readFixed_of_head hsign _ _)

theorem timestamp?_of_separator (hyear : 0 ≤ f.year ∧ f.year ≤ 9999) (hs : s ≠ '-') :
    timestamp? (Layout.text (.year :: .literal s :: items) f) = none := by
  rw [Layout.text, List.flatMap_cons, Item.text, yearText_of_short hyear]
  refine bind_of_some (readFixed_padded (by decide) (by omega) _) ?_
  exact bind_of_none (readLiteral_eq_none fun heq => hs (Option.some.inj heq))

theorem timestamp?_dateItems (hf : f.Real) (hyear : 0 ≤ f.year ∧ f.year ≤ 9999) :
    timestamp? (Layout.text (dateItems '-') f) = none := by
  obtain ⟨hmonth, hday, -⟩ := hf.lt
  have htext : Layout.text (dateItems '-') f = padded 4 f.year.natAbs ++ '-' ::
      (padded 2 f.month ++ '-' :: (padded 2 f.day ++ [])) := by
    rw [← yearText_of_short hyear]
    rfl
  rw [htext]
  refine bind_of_some (readFixed_padded (by decide) (by omega) _) ?_
  refine bind_of_some (readLiteral_self _ _) ?_
  refine bind_of_some (readFixed_two hmonth _) ?_
  refine bind_of_some (readLiteral_self _ _) ?_
  exact bind_of_some (readFixed_two hday _) rfl

/-- A timestamp has a year of four digits, dashes and an offset; no layout writes all of them. -/
theorem timestamp?_text (hf : f.Real) (hlayout : layout ∈ layouts) :
    timestamp? (layout.text f) = none := by
  obtain ⟨s, hs, items, hitems, rfl⟩ := exists_dateItems hlayout
  by_cases hyear : 0 ≤ f.year ∧ f.year ≤ 9999
  · by_cases hdash : s = '-'
    · subst hdash
      have htime : ∀ mark, isTimeMark mark = true → timestamp? (dateTimeText f mark []) = none :=
        fun mark hmark => timestamp?_dateTimeText hf hyear hmark
      simp only [dateTimeText, List.append_nil] at htime
      rcases mem_timeLayouts.1 hitems with rfl | rfl | rfl
      · exact timestamp?_dateItems hf hyear
      · exact htime ' ' rfl
      · exact htime 'T' rfl
    · exact timestamp?_of_separator hyear hdash
  · exact timestamp?_of_sign hyear

theorem isTight_text (hlayout : layout ∈ layouts) : Text.isTight (layout.text f) = true := by
  have hends : ∃ middle last, (last = Item.day ∨ last = .second) ∧
      layout = .year :: (middle ++ [last]) := by
    obtain ⟨s, -, items, hitems, rfl⟩ := exists_dateItems hlayout
    rcases mem_timeLayouts.1 hitems with rfl | rfl | rfl
    · exact ⟨(dateItems s).tail.dropLast, _, .inl rfl, rfl⟩
    · exact ⟨(dateItems s).tail ++ .space :: timeItems.dropLast, _, .inr rfl, rfl⟩
    · exact ⟨(dateItems s).tail ++ .literal 'T' :: timeItems.dropLast, _, .inr rfl, rfl⟩
  obtain ⟨middle, last, hlast, rfl⟩ := hends
  have htext : Layout.text (.year :: (middle ++ [last])) f =
      yearText f.year ++ Layout.text middle f ++ last.text f := by
    simp [Layout.text, Item.text]
  have hnumber : ∃ n, last.text f = padded 2 n := by
    rcases hlast with rfl | rfl
    · exact ⟨f.day, rfl⟩
    · exact ⟨f.second, rfl⟩
  obtain ⟨n, hn⟩ := hnumber
  rw [htext, hn]
  exact Text.isTight_append yearText_ne_nil padded_ne_nil isBlank_of_mem_yearText
    isBlank_of_mem_padded _

end Calendar

open Calendar Text

namespace Date
variable {d : Date} {f : Fields} {layout : Layout} {front back text : List Char}

theorem ofText?_between_blanks (hfront : AllBlank front) (hback : AllBlank back)
    (htext : isTight text = true) : Date.ofText? (String.ofList (front ++ text ++ back)) =
      ((timestamp? text).or (layouts.findSome? (·.date? text))) := by
  rw [Date.ofText?, String.toList_ofList, trim_between_blanks hfront hback htext]
  cases timestamp? text <;> rfl

theorem ofText?_text (hf : f.Real) (hlayout : layout ∈ layouts) (hfront : AllBlank front)
    (hback : AllBlank back) :
    Date.ofText? (String.ofList (front ++ layout.text f ++ back)) = some f.date := by
  have hself := date?_text hf hlayout
  have hsome : (layouts.findSome? (·.date? (layout.text f))).isSome := by
    refine List.findSome?_isSome_iff.2 ⟨layout, hlayout, ?_⟩
    rw [hself]
    rfl
  obtain ⟨d, hd⟩ := Option.isSome_iff_exists.1 hsome
  obtain ⟨other, hother, hread⟩ := List.exists_of_findSome?_eq_some hd
  rw [ofText?_between_blanks hfront hback (isTight_text hlayout), timestamp?_text hf hlayout,
    Option.none_or, hd]
  by_cases hsame : other = layout
  · subst hsame
    exact hread.symm.trans hself
  · rw [date?_text_of_ne hf hlayout hother hsame] at hread
    cases hread

theorem ofText?_render (hd : d.Valid) : Date.ofText? d.render = some d := by
  have hf : Fields.Real ⟨d.year, d.month, d.day, 0, 0, 0⟩ :=
    ⟨hd, Nat.zero_lt_succ _, Nat.zero_lt_succ _, Nat.zero_le _⟩
  have htext : d.text =
      [] ++ Layout.text (dateItems '-') ⟨d.year, d.month, d.day, 0, 0, 0⟩ ++ [] := by
    simp [Layout.text, dateItems, Item.text, text]
  rw [render, htext]
  exact ofText?_text hf (by simp [layouts, dateItems]) (List.forall_mem_nil _)
    (List.forall_mem_nil _)

end Date
end TablePlanner
