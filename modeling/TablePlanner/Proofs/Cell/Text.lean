import TablePlanner.Cell.Order
import TablePlanner.Proofs.Json.NumberText
import TablePlanner.Proofs.Json.Syntax

/-! The compact text tells a cell apart from every other one: the first character tells the kind,
and what follows a value never goes on with it. -/
namespace TablePlanner

/-- What the type of JSON values keeps of a value: its floats are of the format, and no object has
a key twice. -/
inductive Json.Value.Valid : Json.Value → Prop where
  | null : Valid .null
  | bool (b : Bool) : Valid (.bool b)
  | number {n : Json.Number} (h : n.Valid) : Valid (.number n)
  | string (s : String) : Valid (.string s)
  | array {vs : List Json.Value} (h : ∀ v ∈ vs, Valid v) : Valid (.array vs)
  | object {ms : List (String × Json.Value)} (hkeys : (ms.map (·.1)).Nodup)
    (h : ∀ m ∈ ms, Valid m.2) : Valid (.object ms)

namespace Cell
open Json Json.Value

def rankOf (c : Char) : Nat :=
  if Number.isNumberChar c then 2
  else
    match c with
    | 'n' => 0
    | 't' | 'f' => 1
    | '"' => 3
    | '[' => 4
    | '\x7b' => 5
    | _ => 6

theorem exists_head_text (v : Value) : ∃ c cs, v.text = c :: cs ∧ rankOf c = rank v := by
  cases v with
  | null => exact ⟨_, _, rfl, rfl⟩
  | bool b => cases b <;> exact ⟨_, _, rfl, rfl⟩
  | number n =>
    cases htext : n.text with
    | nil => exact absurd htext n.text_ne_nil
    | cons c cs =>
      have hc := Number.isNumberChar_of_mem_text n c (by simp [htext])
      exact ⟨c, cs, htext, if_pos hc⟩
  | string s => exact ⟨_, _, rfl, rfl⟩
  | array vs => cases vs <;> exact ⟨_, _, rfl, rfl⟩
  | object ms => cases ms <;> exact ⟨_, _, rfl, rfl⟩

theorem rank_eq_of_text {v w : Value} {rest rest' : List Char}
    (h : v.text ++ rest = w.text ++ rest') : rank v = rank w := by
  obtain ⟨c, cs, htext, hrank⟩ := exists_head_text v
  obtain ⟨d, ds, htext', hrank'⟩ := exists_head_text w
  rw [htext, htext', List.cons_append, List.cons_append] at h
  rw [← hrank, ← hrank', (List.cons.inj h).1]

theorem text_append_ne_bracket (v : Value) (rest rest' : List Char) :
    v.text ++ rest ≠ ']' :: rest' := by
  intro h
  obtain ⟨c, cs, htext, hrank⟩ := exists_head_text v
  rw [htext] at h
  rw [(List.cons.inj h).1] at hrank
  have hsix : rankOf ']' = 6 := rfl
  rw [hsix] at hrank
  cases v <;> cases hrank

/-- A value is told by its text, whatever may follow. -/
def Told (v : Value) : Prop :=
  ∀ w : Value, w.Valid → ∀ rest rest', Follows rest → Follows rest' →
    v.text ++ rest = w.text ++ rest' → v = w ∧ rest = rest'

section
variable {rest rest' : List Char}

theorem quoted_append_inj {s t : String} (h : quoted s ++ rest = quoted t ++ rest') :
    s = t ∧ rest = rest' := by
  have hread : ∀ (s : String) (rest : List Char),
      Document.readString ((quoted s ++ rest).drop 1) = some (some s, rest) := by
    intro s rest
    have hsplit : (quoted s ++ rest).drop 1 = s.toList.flatMap escape ++ '"' :: rest := by
      simp [quoted]
    rw [hsplit]
    exact Document.readString_quoted s rest
  have hsame := hread s rest
  rw [h, hread t rest'] at hsame
  cases hsame
  exact ⟨rfl, rfl⟩

theorem itemsText_append_inj {vs ws : List Value} (hvs : ∀ v ∈ vs, Told v)
    (hws : ∀ w ∈ ws, w.Valid) (h : itemsText vs ++ rest = itemsText ws ++ rest') :
    vs = ws ∧ rest = rest' := by
  induction vs generalizing ws with
  | nil =>
    cases ws with
    | nil => exact ⟨rfl, List.append_cancel_left h⟩
    | cons w ws => cases (List.cons.inj h).1
  | cons v vs ih =>
    cases ws with
    | nil => cases (List.cons.inj h).1
    | cons w ws =>
      rw [List.forall_mem_cons] at hvs hws
      have hnext : v.text ++ (itemsText vs ++ rest) = w.text ++ (itemsText ws ++ rest') := by
        simpa [itemsText] using h
      obtain ⟨rfl, hrest⟩ := hvs.1 w hws.1 _ _ (Document.follows_itemsText vs rest)
        (Document.follows_itemsText ws rest') hnext
      obtain ⟨rfl, hend⟩ := ih hvs.2 hws.2 hrest
      exact ⟨rfl, hend⟩

theorem membersText_append_inj {ms ns : List (String × Value)} (hms : ∀ m ∈ ms, Told m.2)
    (hns : ∀ n ∈ ns, n.2.Valid) (h : membersText ms ++ rest = membersText ns ++ rest') :
    ms = ns ∧ rest = rest' := by
  induction ms generalizing ns with
  | nil =>
    cases ns with
    | nil => exact ⟨rfl, List.append_cancel_left h⟩
    | cons n ns => cases (List.cons.inj h).1
  | cons m ms ih =>
    cases ns with
    | nil => cases (List.cons.inj h).1
    | cons n ns =>
      obtain ⟨k, v⟩ := m
      obtain ⟨l, w⟩ := n
      rw [List.forall_mem_cons] at hms hns
      have hnext : quoted k ++ ':' :: (v.text ++ (membersText ms ++ rest)) =
          quoted l ++ ':' :: (w.text ++ (membersText ns ++ rest')) := by
        simpa [membersText] using h
      obtain ⟨rfl, hvalue⟩ := quoted_append_inj hnext
      obtain ⟨rfl, hrest⟩ := hms.1 w hns.1 _ _ (Document.follows_membersText ms rest)
        (Document.follows_membersText ns rest') (List.cons.inj hvalue).2
      obtain ⟨rfl, hend⟩ := ih hms.2 hns.2 hrest
      exact ⟨rfl, hend⟩

theorem array_append_inj {vs ws : List Value} (hvs : ∀ v ∈ vs, Told v) (hws : ∀ w ∈ ws, w.Valid)
    (h : (Value.array vs).text ++ rest = (Value.array ws).text ++ rest') :
    vs = ws ∧ rest = rest' := by
  cases vs with
  | nil =>
    cases ws with
    | nil => exact ⟨rfl, List.append_cancel_left h⟩
    | cons w ws =>
      have hclosed : w.text ++ (itemsText ws ++ rest') = ']' :: rest := by
        simpa [Value.text] using h.symm
      exact absurd hclosed (text_append_ne_bracket _ _ _)
  | cons v vs =>
    cases ws with
    | nil =>
      have hclosed : v.text ++ (itemsText vs ++ rest) = ']' :: rest' := by
        simpa [Value.text] using h
      exact absurd hclosed (text_append_ne_bracket _ _ _)
    | cons w ws =>
      -- With a comma in front these are the texts of further items.
      apply itemsText_append_inj hvs hws
      simpa [Value.text, itemsText] using h

theorem object_append_inj {ms ns : List (String × Value)} (hms : ∀ m ∈ ms, Told m.2)
    (hns : ∀ n ∈ ns, n.2.Valid)
    (h : (Value.object ms).text ++ rest = (Value.object ns).text ++ rest') :
    ms = ns ∧ rest = rest' := by
  cases ms with
  | nil =>
    cases ns with
    | nil => exact ⟨rfl, List.append_cancel_left h⟩
    | cons n ns => simp [Value.text, quoted] at h
  | cons m ms =>
    cases ns with
    | nil => simp [Value.text, quoted] at h
    | cons n ns =>
      apply membersText_append_inj hms hns
      simpa [Value.text, membersText] using h

end

theorem told_of_valid {v : Value} (h : v.Valid) : Told v := by
  -- By the structure of the value: items and members are told before what holds them.
  induction h with
  | null =>
    intro w hw rest rest' _ _ heq
    have hrank := rank_eq_of_text heq
    cases hw with
    | null => exact ⟨rfl, List.append_cancel_left heq⟩
    | _ => simp [rank] at hrank
  | bool b =>
    intro w hw rest rest' _ _ heq
    have hrank := rank_eq_of_text heq
    cases hw with
    | bool c =>
      cases b with
      | true =>
        cases c with
        | true => exact ⟨rfl, List.append_cancel_left heq⟩
        | false => cases (List.cons.inj heq).1
      | false =>
        cases c with
        | true => cases (List.cons.inj heq).1
        | false => exact ⟨rfl, List.append_cancel_left heq⟩
    | _ => simp [rank] at hrank
  | @number n hn =>
    intro w hw rest rest' hrest hrest' heq
    have hrank := rank_eq_of_text heq
    cases hw with
    | number hm =>
      obtain ⟨rfl, hend⟩ := Number.text_append_inj hn hm hrest hrest' heq
      exact ⟨rfl, hend⟩
    | _ => simp [rank] at hrank
  | string s =>
    intro w hw rest rest' _ _ heq
    have hrank := rank_eq_of_text heq
    cases hw with
    | string t =>
      obtain ⟨rfl, hend⟩ := quoted_append_inj heq
      exact ⟨rfl, hend⟩
    | _ => simp [rank] at hrank
  | @array vs _ ih =>
    intro w hw rest rest' _ _ heq
    have hrank := rank_eq_of_text heq
    cases hw with
    | @array ws hws =>
      obtain ⟨rfl, hend⟩ := array_append_inj ih hws heq
      exact ⟨rfl, hend⟩
    | _ => simp [rank] at hrank
  | @object ms _ _ ih =>
    intro w hw rest rest' _ _ heq
    have hrank := rank_eq_of_text heq
    cases hw with
    | @object ns _ hns =>
      obtain ⟨rfl, hend⟩ := object_append_inj ih hns heq
      exact ⟨rfl, hend⟩
    | _ => simp [rank] at hrank

theorem render_inj {v w : Value} (hv : v.Valid) (hw : w.Valid) (h : v.render = w.render) :
    v = w := by
  have htext : v.text = w.text := String.ofList_injective h
  apply (told_of_valid hv w hw [] [] trivial trivial _).1
  rw [htext]

end Cell
end TablePlanner
