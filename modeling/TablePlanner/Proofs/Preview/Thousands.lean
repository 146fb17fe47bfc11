import TablePlanner.Preview.Thousands
import TablePlanner.Proofs.Json.NumberText

namespace TablePlanner.Preview

/-- A text is the digits in groups: a first one of one to three, each other of three. -/
def Grouped (digits text : List Char) : Prop :=
  ∃ (first : List Char) (groups : List (List Char)),
    first ≠ [] ∧ first.length ≤ 3 ∧ (∀ group ∈ groups, group.length = 3) ∧
      digits = first ++ groups.flatten ∧ text = first ++ groups.flatMap (',' :: ·)

theorem groupDigits_true_cons (d : Char) (digits : List Char) :
    groupDigits true (d :: digits) = d :: groupDigits false digits := rfl

theorem groupDigits_cons_of_full {d : Char} {digits : List Char}
    (h : (digits.length + 1) % 3 = 0) :
    groupDigits false (d :: digits) = ',' :: d :: groupDigits false digits := by
  simp [groupDigits, h]

theorem groupDigits_cons_of_not_full {d : Char} {digits : List Char}
    (h : (digits.length + 1) % 3 ≠ 0) :
    groupDigits false (d :: digits) = d :: groupDigits false digits := by
  simp [groupDigits, h]

theorem length_flatten_of_groups {groups : List (List Char)}
    (h : ∀ group ∈ groups, group.length = 3) : groups.flatten.length = 3 * groups.length := by
  rw [List.length_flatten, List.map_congr_left h, List.map_const', List.sum_replicate_nat,
    Nat.mul_comm]

theorem exists_groups (digits : List Char) : ∃ (rest : List Char) (groups : List (List Char)),
    rest.length < 3 ∧ (∀ group ∈ groups, group.length = 3) ∧ digits = rest ++ groups.flatten ∧
    groupDigits false digits = rest ++ groups.flatMap (',' :: ·) := by
  induction digits with
  | nil => exact ⟨[], [], by simp [groupDigits]⟩
  | cons d digits ih =>
    obtain ⟨rest, groups, hrest, hgroups, hdigits, htext⟩ := ih
    have hlength : digits.length = rest.length + 3 * groups.length := by
      rw [hdigits, List.length_append, length_flatten_of_groups hgroups]
    by_cases hfull : rest.length = 2
    · refine ⟨[], (d :: rest) :: groups, by simp, ?_, ?_, ?_⟩
      · simpa [hfull] using hgroups
      · simp [hdigits]
      · rw [groupDigits_cons_of_full (by omega), htext]
        simp
    · refine ⟨d :: rest, groups, ?_, hgroups, ?_, ?_⟩
      · rw [List.length_cons]
        omega
      · simp [hdigits]
      · rw [groupDigits_cons_of_not_full (by omega), htext, List.cons_append]

theorem grouped_groupDigits {digits : List Char} (h : digits ≠ []) :
    Grouped digits (groupDigits true digits) := by
  obtain ⟨d, digits, rfl⟩ := List.exists_cons_of_ne_nil h
  obtain ⟨rest, groups, hrest, hgroups, hdigits, htext⟩ := exists_groups digits
  refine ⟨d :: rest, groups, List.cons_ne_nil _ _, hrest, hgroups, ?_, ?_⟩
  · rw [List.cons_append, ← hdigits]
  · rw [groupDigits_true_cons, htext, List.cons_append]

theorem groupDigits_flatten {groups : List (List Char)}
    (h : ∀ group ∈ groups, group.length = 3) :
    groupDigits false groups.flatten = groups.flatMap (',' :: ·) := by
  induction groups with
  | nil => rfl
  | cons group groups ih =>
    obtain ⟨hthree, hgroups⟩ := List.forall_mem_cons.1 h
    obtain ⟨a, b, c, rfl⟩ := List.length_eq_three.1 hthree
    have hlength := length_flatten_of_groups hgroups
    calc groupDigits false (a :: b :: c :: groups.flatten)
        = ',' :: a :: groupDigits false (b :: c :: groups.flatten) :=
          groupDigits_cons_of_full (by simp only [List.length_cons]; omega)
      _ = ',' :: a :: b :: groupDigits false (c :: groups.flatten) := by
          rw [groupDigits_cons_of_not_full (by simp only [List.length_cons]; omega)]
      _ = ',' :: a :: b :: c :: groupDigits false groups.flatten := by
          rw [groupDigits_cons_of_not_full (by omega)]
      _ = ',' :: a :: b :: c :: groups.flatMap (',' :: ·) := by rw [ih hgroups]

theorem groupDigits_append {rest digits : List Char} (hrest : rest.length < 3)
    (hdigits : digits.length % 3 = 0) :
    groupDigits false (rest ++ digits) = rest ++ groupDigits false digits := by
  induction rest with
  | nil => rfl
  | cons d rest ih =>
    rw [List.length_cons] at hrest
    have hopen : ((rest ++ digits).length + 1) % 3 ≠ 0 := by
      rw [List.length_append]
      omega
    rw [List.cons_append, groupDigits_cons_of_not_full hopen, ih (by omega), List.cons_append]

theorem grouped_iff {digits text : List Char} (h : digits ≠ []) :
    Grouped digits text ↔ text = groupDigits true digits := by
  constructor
  · rintro ⟨first, groups, hfirst, hle, hgroups, rfl, rfl⟩
    obtain ⟨d, rest, rfl⟩ := List.exists_cons_of_ne_nil hfirst
    rw [List.length_cons] at hle
    have hlength := length_flatten_of_groups hgroups
    rw [List.cons_append, List.cons_append, groupDigits_true_cons,
      groupDigits_append (by omega) (by omega), groupDigits_flatten hgroups]
  · rintro rfl
    exact grouped_groupDigits h

theorem exists_grouped_thousands (n : Int) : ∃ text, Grouped (Nat.toDigits 10 n.natAbs) text ∧
    (thousands n).toList = (if n < 0 then ['-'] else []) ++ text :=
  ⟨_, grouped_groupDigits Nat.toDigits_ne_nil, String.toList_ofList⟩

theorem mem_groupDigits {first : Bool} {digits : List Char} {c : Char}
    (h : c ∈ groupDigits first digits) : c = ',' ∨ c ∈ digits := by
  induction digits generalizing first with
  | nil => cases h
  | cons d digits ih =>
    rcases List.mem_append.1 h with hc | hc
    · split at hc <;> grind
    · exact (ih hc).imp_right (List.mem_cons_of_mem d)

theorem filter_groupDigits {digits : List Char} (h : ∀ d ∈ digits, d ≠ ',') (first : Bool) :
    (groupDigits first digits).filter (· ≠ ',') = digits := by
  induction digits generalizing first with
  | nil => rfl
  | cons d digits ih =>
    rw [List.forall_mem_cons] at h
    rw [groupDigits, List.filter_append, ih h.2]
    split <;> simp [h.1]

theorem filter_thousands (n : Int) :
    (thousands n).toList.filter (· ≠ ',') = Json.Number.intText n := by
  have hdigits : ∀ d ∈ Nat.toDigits 10 n.natAbs, d ≠ ',' := by
    rintro d hd rfl
    exact absurd (Json.Document.isDigit_of_mem_toDigits _ hd) (by decide)
  rw [thousands, String.toList_ofList, thousandsText, List.filter_append,
    filter_groupDigits hdigits, Json.Number.intText]
  split <;> rfl

theorem toList_toString_eq_intText (n : Int) : (toString n).toList = Json.Number.intText n := by
  rw [Int.toString_eq_repr, Int.repr_eq_if, Json.Number.intText]
  by_cases hn : n < 0
  · have hmagnitude : (-n).toNat = n.natAbs := by omega
    rw [if_neg (by omega), if_pos hn, String.toList_append, Nat.toList_repr, hmagnitude]
    rfl
  · have hmagnitude : n.toNat = n.natAbs := by omega
    rw [if_pos (by omega), if_neg hn, Nat.toList_repr, hmagnitude]

theorem Grouped.exists_head {digits text : List Char} (h : Grouped digits text) :
    ∃ d rest, d ∈ digits ∧ text = d :: rest := by
  obtain ⟨first, groups, hfirst, -, -, rfl, rfl⟩ := h
  obtain ⟨d, first, rfl⟩ := List.exists_cons_of_ne_nil hfirst
  exact ⟨d, _, List.mem_cons_self, List.cons_append⟩

theorem thousands_ne_sign_comma (n : Int) (rest : List Char) :
    (thousands n).toList ≠ '-' :: ',' :: rest := by
  obtain ⟨text, hgrouped, htext⟩ := exists_grouped_thousands n
  obtain ⟨d, ds, hd, rfl⟩ := hgrouped.exists_head
  have hdigit : d.isDigit = true := Json.Document.isDigit_of_mem_toDigits d hd
  intro h
  rw [htext] at h
  split at h
  · obtain ⟨rfl, -⟩ := List.cons.inj (List.cons.inj h).2
    cases hdigit
  · obtain ⟨rfl, -⟩ := List.cons.inj h
    cases hdigit

/-- Without its commas the text of a number is its decimal text. The sign comes first and no comma
behind it, then the digits in groups, which is one text only. No two numbers have one text. -/
theorem thousands_exact_in_groups :
    (∀ n : Int,
      (thousands n).toList.filter (· ≠ ',') = (toString n).toList ∧
      (∃ text, (∀ other, Grouped (Nat.toDigits 10 n.natAbs) other ↔ other = text) ∧
        (thousands n).toList = (if n < 0 then ['-'] else []) ++ text) ∧
      (∀ d ∈ Nat.toDigits 10 n.natAbs, d.isDigit) ∧
      ∀ rest, (thousands n).toList ≠ '-' :: ',' :: rest) ∧
    Function.Injective thousands := by
  refine ⟨fun n => ⟨?_, ⟨_, fun other => grouped_iff Nat.toDigits_ne_nil, String.toList_ofList⟩,
    Json.Document.isDigit_of_mem_toDigits, thousands_ne_sign_comma n⟩,
    fun m n h => Json.Number.intText_inj ?_⟩
  · rw [filter_thousands, toList_toString_eq_intText]
  · rw [← filter_thousands, ← filter_thousands, h]

example : thousands (-9223372036854775808) = "-9,223,372,036,854,775,808" := by decide

end TablePlanner.Preview
