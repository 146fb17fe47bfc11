import TablePlanner.Proofs.Json.Literal

namespace TablePlanner.Json

/-- A value without floats that nests at most `depth` arrays and objects into each other. Its
integers fit a literal and no object has a key twice, as in every value that a text can give. -/
inductive Value.Exact : Nat → Value → Prop where
  | null {depth : Nat} : Exact depth .null
  | bool {depth : Nat} (b : Bool) : Exact depth (.bool b)
  | integer {depth : Nat} {n : Int} (h : Number.InRange n) : Exact depth (.number (.integer n))
  | string {depth : Nat} (s : String) : Exact depth (.string s)
  | array {depth : Nat} {vs : List Value} (h : ∀ v ∈ vs, Exact depth v) :
    Exact (depth + 1) (.array vs)
  | object {depth : Nat} {ms : List (String × Value)} (hkeys : (ms.map (·.1)).Nodup)
    (h : ∀ m ∈ ms, Exact depth m.2) : Exact (depth + 1) (.object ms)

namespace Value.Exact

theorem mono {depth depth' : Nat} {v : Value} (h : v.Exact depth) (hle : depth ≤ depth') :
    v.Exact depth' := by
  induction h generalizing depth' with
  | null => exact .null
  | bool b => exact .bool b
  | integer hn => exact .integer hn
  | string s => exact .string s
  | array h ih =>
    cases depth' with
    | zero => cases hle
    | succ depth' => exact .array fun v hv => ih v hv (Nat.le_of_succ_le_succ hle)
  | object hkeys h ih =>
    cases depth' with
    | zero => cases hle
    | succ depth' => exact .object hkeys fun m hm => ih m hm (Nat.le_of_succ_le_succ hle)

end Value.Exact

namespace Document
open Value (itemsText membersText quoted)

theorem skipSpace_cons {c : Char} (h : isSpace c = false) (cs : List Char) :
    skipSpace (c :: cs) = c :: cs := by
  simp [skipSpace, h]

theorem isSpace_of_isDigit {c : Char} (h : c.isDigit = true) : isSpace c = false := by
  rw [← Bool.not_eq_true]
  intro hspace
  simp only [isSpace, Bool.or_eq_true, beq_iff_eq] at hspace
  rcases hspace with ((rfl | rfl) | rfl) | rfl <;> cases h

theorem exists_head_intText (n : Int) : ∃ c cs, Number.intText n = c :: cs ∧ isSpace c = false ∧
    ∀ d ∈ ['"', '[', ']', '\x7b', 'n', 't', 'f'], d ≠ c := by
  have hsign : ∀ d ∈ ['"', '[', ']', '\x7b', 'n', 't', 'f'],
      d ≠ '-' ∧ d.isDigit = false := by simp
  unfold Number.intText
  split
  · exact ⟨_, _, rfl, rfl, fun d hd => (hsign d hd).1⟩
  · cases hdigits : Nat.toDigits 10 n.natAbs with
    | nil => exact absurd hdigits Nat.toDigits_ne_nil
    | cons c cs =>
      have hc : c.isDigit = true := isDigit_of_mem_toDigits (n := n.natAbs) c (by simp [hdigits])
      refine ⟨c, cs, rfl, isSpace_of_isDigit hc, fun d hd heq => ?_⟩
      rw [← heq, (hsign d hd).2] at hc
      cases hc

theorem exists_head_text {depth : Nat} {v : Value} (h : v.Exact depth) :
    ∃ c cs, v.text = c :: cs ∧ isSpace c = false ∧ c ≠ ']' := by
  cases h with
  | null => exact ⟨_, _, rfl, rfl, by decide⟩
  | bool b => cases b <;> exact ⟨_, _, rfl, rfl, by decide⟩
  | @integer _ n hn =>
    obtain ⟨c, cs, htext, hspace, hne⟩ := exists_head_intText n
    exact ⟨c, cs, htext, hspace, (hne ']' (by simp)).symm⟩
  | string s => exact ⟨_, _, rfl, rfl, by decide⟩
  | @array _ vs h => cases vs <;> exact ⟨_, _, rfl, rfl, by decide⟩
  | @object _ ms hkeys h => cases ms <;> exact ⟨_, _, rfl, rfl, by decide⟩

theorem readValue_scalar {c : Char} {cs : List Char} (hspace : isSpace c = false)
    (hquote : c ≠ '"') (harray : c ≠ '[') (hobject : c ≠ '\x7b') (fuel depth : Nat) :
    readValue (fuel + 1) depth (c :: cs) = readScalar (c :: cs) := by
  unfold readValue
  rw [skipSpace_cons hspace]
  split <;> simp_all

theorem dropWord_of_ne {w c : Char} (h : w ≠ c) (ws cs : List Char) :
    dropWord (w :: ws) (c :: cs) = none := by
  simp [dropWord, h]

theorem readValue_intText {rest : List Char} (hrest : Follows rest) (n : Int) (fuel depth : Nat) :
    readValue (fuel + 1) depth (Number.intText n ++ rest) =
      (.number (String.ofList (Number.intText n)), rest) := by
  have hnumber := readNumber_intText hrest n
  obtain ⟨c, cs, htext, hspace, hne⟩ := exists_head_intText n
  simp only [List.forall_mem_cons] at hne
  obtain ⟨hquote, harray, -, hobject, hnull, htrue, hfalse, -⟩ := hne
  rw [htext, List.cons_append] at hnumber ⊢
  rw [readValue_scalar hspace hquote.symm harray.symm hobject.symm]
  unfold readScalar
  simp only [dropWord_of_ne hnull, dropWord_of_ne htrue, dropWord_of_ne hfalse, hnumber]

/-- The text of a value reads back as its document, whatever may follow. -/
def Reads (depth : Nat) (v : Value) : Prop :=
  ∀ fuel rest, v.text.length ≤ fuel → Follows rest →
    readValue fuel depth (v.text ++ rest) = (ofValue v, rest)

theorem follows_itemsText (vs : List Value) (rest : List Char) :
    Follows (itemsText vs ++ rest) := by
  cases vs <;> simp [itemsText, Follows]

theorem follows_membersText (ms : List (String × Value)) (rest : List Char) :
    Follows (membersText ms ++ rest) := by
  cases ms <;> simp [membersText, Follows]

section
variable {fuel depth : Nat} {cs rest after : List Char} {d : Document}

theorem readItems_last (h : readValue fuel depth cs = (d, ']' :: rest)) :
    readItems (fuel + 1) depth cs = ([d], true, rest) := by
  rw [readItems, h]
  rfl

theorem readItems_next {items : List Document} {closed : Bool}
    (h : readValue fuel depth cs = (d, ',' :: rest))
    (hrest : readItems fuel depth rest = (items, closed, after)) :
    readItems (fuel + 1) depth cs = (d :: items, closed, after) := by
  rw [readItems, h]
  simp [skipSpace_cons, isSpace, hrest]

theorem readMembers_last (k : String) (h : readValue fuel depth cs = (d, '\x7d' :: rest)) :
    readMembers (fuel + 1) depth (quoted k ++ ':' :: cs) = ([(some k, d)], true, rest) := by
  rw [readMembers]
  simp [quoted, skipSpace_cons, isSpace, readString_quoted, h]

theorem readMembers_next {members : List (Option String × Document)} {closed : Bool} (k : String)
    (h : readValue fuel depth cs = (d, ',' :: rest))
    (hrest : readMembers fuel depth rest = (members, closed, after)) :
    readMembers (fuel + 1) depth (quoted k ++ ':' :: cs) =
      ((some k, d) :: members, closed, after) := by
  rw [readMembers]
  simp [quoted, skipSpace_cons, isSpace, readString_quoted, h, hrest]

theorem readValue_items {c : Char} {items : List Document} {closed : Bool}
    (hspace : isSpace c = false) (hne : c ≠ ']')
    (h : readItems fuel depth (c :: cs) = (items, closed, after)) :
    readValue (fuel + 1) (depth + 1) ('[' :: c :: cs) = (.array items closed, after) := by
  rw [readValue, skipSpace_cons rfl]
  simp [skipSpace_cons hspace, hne, h]

theorem readValue_members {k : String} {members : List (Option String × Document)} {closed : Bool}
    (h : readMembers fuel depth (quoted k ++ cs) = (members, closed, after)) :
    readValue (fuel + 1) (depth + 1) ('\x7b' :: (quoted k ++ cs)) =
      (.object members closed, after) := by
  unfold quoted at h ⊢
  rw [readValue, skipSpace_cons rfl]
  simp only [List.cons_append, List.append_assoc, List.nil_append] at h ⊢
  simp [skipSpace_cons, isSpace, h]

end

theorem readItems_text {depth : Nat} {v : Value} {vs : List Value} (hv : Reads depth v)
    (hvs : ∀ w ∈ vs, Reads depth w) {fuel : Nat}
    (hfuel : v.text.length + (itemsText vs).length ≤ fuel) (rest : List Char) :
    readItems fuel depth (v.text ++ (itemsText vs ++ rest)) = (ofValues (v :: vs), true, rest) := by
  -- Induction on the items that follow; the mark in front of each pays for one more step.
  induction vs generalizing v fuel with
  | nil =>
    cases fuel with
    | zero => simp [itemsText] at hfuel
    | succ fuel =>
      have hlen : v.text.length ≤ fuel := by simpa [itemsText] using hfuel
      exact readItems_last (hv fuel _ hlen (follows_itemsText [] rest))
  | cons w vs ih =>
    cases fuel with
    | zero => simp [itemsText] at hfuel
    | succ fuel =>
      simp only [itemsText, List.length_append, List.length_cons] at hfuel
      have hread := hv fuel _ (by omega) (follows_itemsText (w :: vs) rest)
      have hlen : w.text.length + (itemsText vs).length ≤ fuel := by omega
      have hrest := ih (hvs w (by simp)) (fun x hx => hvs x (by simp [hx])) hlen
      have htext : itemsText (w :: vs) ++ rest = ',' :: (w.text ++ (itemsText vs ++ rest)) := by
        simp [itemsText]
      rw [htext] at hread ⊢
      exact readItems_next hread hrest

theorem readMembers_text {depth : Nat} {k : String} {v : Value} {ms : List (String × Value)}
    (hv : Reads depth v) (hms : ∀ m ∈ ms, Reads depth m.2) {fuel : Nat}
    (hfuel : v.text.length + (membersText ms).length ≤ fuel) (rest : List Char) :
    readMembers fuel depth (quoted k ++ ':' :: (v.text ++ (membersText ms ++ rest))) =
      (ofMembers ((k, v) :: ms), true, rest) := by
  induction ms generalizing k v fuel with
  | nil =>
    cases fuel with
    | zero => simp [membersText] at hfuel
    | succ fuel =>
      have hlen : v.text.length ≤ fuel := by simpa [membersText] using hfuel
      exact readMembers_last k (hv fuel _ hlen (follows_membersText [] rest))
  | cons m ms ih =>
    obtain ⟨k', w⟩ := m
    cases fuel with
    | zero => simp [membersText] at hfuel
    | succ fuel =>
      simp only [membersText, List.length_append, List.length_cons] at hfuel
      have hread := hv fuel _ (by omega) (follows_membersText ((k', w) :: ms) rest)
      have hw : Reads depth w := hms (k', w) (by simp)
      have hlen : w.text.length + (membersText ms).length ≤ fuel := by omega
      have hrest := ih (k := k') hw (fun x hx => hms x (by simp [hx])) hlen
      have htext : membersText ((k', w) :: ms) ++ rest =
          ',' :: (quoted k' ++ ':' :: (w.text ++ (membersText ms ++ rest))) := by
        simp [membersText]
      rw [htext] at hread ⊢
      exact readMembers_next k hread hrest

theorem Reads.of_succ {depth : Nat} {v : Value} (hv : v.Exact depth)
    (h : ∀ fuel rest, v.text.length ≤ fuel + 1 → Follows rest →
      readValue (fuel + 1) depth (v.text ++ rest) = (ofValue v, rest)) : Reads depth v := by
  intro fuel rest hfuel hrest
  cases fuel with
  | zero =>
    obtain ⟨c, cs, htext, -⟩ := exists_head_text hv
    simp [htext] at hfuel
  | succ fuel => exact h fuel rest hfuel hrest

theorem reads_of_exact {depth : Nat} {v : Value} (h : v.Exact depth) : Reads depth v := by
  induction h with
  | null => exact .of_succ .null fun _ _ _ _ => rfl
  | bool b => cases b <;> exact .of_succ (.bool _) fun _ _ _ _ => rfl
  | @integer depth n hn =>
    exact .of_succ (.integer hn) fun fuel rest _ hrest => readValue_intText hrest n fuel depth
  | string s =>
    refine .of_succ (.string s) fun fuel rest _ _ => ?_
    simp [Value.text, quoted, readValue, skipSpace_cons, isSpace, readString_quoted, ofValue]
  | @array depth vs h ih =>
    refine .of_succ (.array h) fun fuel rest hfuel _ => ?_
    cases vs with
    | nil => rfl
    | cons v vs =>
      obtain ⟨c, cs, htext, hspace, hne⟩ := exists_head_text (h v (by simp))
      have hlen : v.text.length + (itemsText vs).length ≤ fuel := by
        simpa [Value.text] using hfuel
      have hitems := readItems_text (ih v (by simp)) (fun w hw => ih w (by simp [hw])) hlen rest
      have hsplit : (Value.array (v :: vs)).text ++ rest =
          '[' :: (v.text ++ (itemsText vs ++ rest)) := by
        simp [Value.text]
      rw [hsplit]
      rw [htext] at hitems ⊢
      exact readValue_items hspace hne hitems
  | @object depth ms hkeys h ih =>
    refine .of_succ (.object hkeys h) fun fuel rest hfuel _ => ?_
    cases ms with
    | nil => rfl
    | cons m ms =>
      obtain ⟨k, v⟩ := m
      have hlen : v.text.length + (membersText ms).length ≤ fuel := by
        simp only [Value.text, List.length_append, List.length_cons] at hfuel
        omega
      have hv : Reads depth v := ih (k, v) (by simp)
      have hmembers := readMembers_text (k := k) hv (fun m hm => ih m (by simp [hm])) hlen rest
      have hsplit : (Value.object ((k, v) :: ms)).text ++ rest =
          '\x7b' :: (quoted k ++ ':' :: (v.text ++ (membersText ms ++ rest))) := by
        simp [Value.text]
      rw [hsplit]
      exact readValue_members hmembers

theorem ofText_render {v : Value} (h : v.Exact maxDepth) : ofText v.render = (ofValue v, true) := by
  have hread := reads_of_exact h (2 * v.text.length + 2) [] (by omega) trivial
  rw [List.append_nil] at hread
  simp [ofText, readText, Value.render, hread, skipSpace]

end Document
end TablePlanner.Json
