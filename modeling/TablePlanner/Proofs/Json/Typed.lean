import TablePlanner.Json.Shape
import TablePlanner.Proofs.Json.Members
import TablePlanner.Proofs.Json.Syntax

namespace TablePlanner.Json
namespace Document

theorem toValues_ofValues {vs : List Value} (h : ∀ v ∈ vs, toValue (ofValue v) = .ok v) :
    toValues (ofValues vs) = .ok vs := by
  induction vs with
  | nil => rfl
  | cons v vs ih =>
    rw [ofValues, toValues, h v (by simp), ih fun w hw => h w (by simp [hw])]
    rfl

theorem toMembers_ofMembers (held : List (String × Value)) {ms : List (String × Value)}
    (hkeys : ((held ++ ms).map (·.1)).Nodup) (h : ∀ m ∈ ms, toValue (ofValue m.2) = .ok m.2) :
    toMembers held (ofMembers ms) = .ok (held ++ ms) := by
  induction ms generalizing held with
  | nil => simp [ofMembers, toMembers]
  | cons m ms ih =>
    obtain ⟨k, v⟩ := m
    have hnew : k ∉ held.map (·.1) := by
      intro hk
      rw [List.map_append, List.nodup_append] at hkeys
      exact hkeys.2.2 k hk k (by simp) rfl
    have hsplit : held ++ (k, v) :: ms = (held ++ [(k, v)]) ++ ms := by simp
    rw [hsplit] at hkeys ⊢
    have hrest := ih _ hkeys fun m hm => h m (by simp [hm])
    have hv : toValue (ofValue v) = .ok v := h (k, v) (by simp)
    rw [ofMembers, toMembers, hv, ← hrest, ← putMember_of_new hnew]
    rfl

theorem toValue_ofValue {depth : Nat} {v : Value} (h : v.Exact depth) :
    toValue (ofValue v) = .ok v := by
  induction h with
  | null => rfl
  | bool b => rfl
  | integer hn => simp [ofValue, toValue, Number.text, Number.ofLiteral?_intText hn]
  | string s => rfl
  | array h ih =>
    rw [ofValue, toValue, toValues_ofValues ih]
    rfl
  | object hkeys h ih =>
    have hmembers := toMembers_ofMembers [] hkeys ih
    rw [ofValue, toValue, hmembers]
    rfl

theorem toInteger_ofValue {least greatest n : Int} (hn : Number.InRange n)
    (h : least ≤ n ∧ n ≤ greatest) :
    toInteger least greatest (ofValue (.int n)) = .ok n := by
  simp [Value.int, ofValue, toInteger, Number.text, Number.ofLiteral?_intText hn, h]

theorem map_of_ok {read : Reader α} {d : Document} {a : α} (f : α → β) (h : read d = .ok a) :
    Reader.map f read d = .ok (f a) := by
  rw [Reader.map, h]
  rfl

theorem ofValues_eq_map (vs : List Value) : ofValues vs = vs.map ofValue := by
  induction vs with
  | nil => rfl
  | cons v vs ih => simp [ofValues, ih]

theorem toList_ofValue {read : Reader α} {form : α → Value} {xs : List α}
    (h : ∀ x ∈ xs, read (ofValue (form x)) = .ok x) :
    toList read (ofValue (.array (xs.map form))) = .ok xs := by
  have hitems : (xs.map fun x => ofValue (form x)).mapM read = .ok xs := by
    induction xs with
    | nil => rfl
    | cons x xs ih =>
      rw [List.map_cons, List.mapM_cons, h x (by simp), ih fun y hy => h y (by simp [hy])]
      rfl
  rw [ofValue, ofValues_eq_map, List.map_map, toList]
  simp only [Function.comp_def, hitems]
  rfl

theorem toTexts_ofValue (ss : List String) : toTexts (ofValue (.strings ss)) = .ok ss :=
  toList_ofValue fun _ _ => rfl

theorem readFields_eq_readInOrder {fields pending : List (RecordField σ)}
    {ms : List (String × Value)} (hnames : pending.map (·.names) = ms.map fun m => [m.1])
    (hkeys : (ms.map (·.1)).Nodup) (record : σ) :
    readFields fields pending record (ofMembers ms) =
      readInOrder pending record (ms.map fun m => ofValue m.2) := by
  induction ms generalizing pending record with
  | nil =>
    cases pending with
    | nil => rfl
    | cons f pending => simp at hnames
  | cons m ms ih =>
    obtain ⟨k, v⟩ := m
    cases pending with
    | nil => simp at hnames
    | cons f pending =>
      simp only [List.map_cons, List.cons.injEq, List.nodup_cons] at hnames hkeys
      have hothers : ∀ g ∈ pending, (!g.names.contains k) = true := by
        intro g hg
        have hmem : g.names ∈ ms.map fun m => [m.1] := hnames.2 ▸ List.mem_map_of_mem hg
        obtain ⟨m, hm, hname⟩ := List.mem_map.1 hmem
        have hne : k ≠ m.1 := by
          rintro rfl
          exact hkeys.1 (List.mem_map_of_mem hm)
        simp [← hname, hne]
      have hfilter : (f :: pending).filter (fun f => !f.names.contains k) = pending := by
        rw [List.filter_cons_of_neg (by simp [hnames.1])]
        exact List.filter_eq_self.2 hothers
      have hfind : (f :: pending).find? (·.names.contains k) = some f :=
        List.find?_cons_of_pos (by simp [hnames.1])
      rw [ofMembers, readFields, hfind, hfilter]
      simp only [List.map_cons, readInOrder, ih hnames.2 hkeys.2]

theorem toRecord_ofValue {fields : List (RecordField σ)} {start record : σ}
    {ms : List (String × Value)} (hnames : fields.map (·.names) = ms.map fun m => [m.1])
    (hkeys : (ms.map (·.1)).Nodup)
    (hread : readInOrder fields start (ms.map fun m => ofValue m.2) = .ok ([], record)) :
    toRecord fields start (ofValue (.object ms)) = .ok record := by
  rw [ofValue, toRecord, readFields_eq_readInOrder hnames hkeys, hread]
  rfl

theorem splitTag_ofMembers {tag : String} {choose : String → Option (Reader α)} {read : Reader α}
    {ms : List (String × Value)} (htag : tag ∉ ms.map (·.1))
    (h : ∀ m ∈ ms, toValue (ofValue m.2) = .ok m.2) (others : List (Option String × Document)) :
    splitTag tag choose (some read) others (ofMembers ms) =
      .ok (some read, others ++ ofMembers ms) := by
  induction ms generalizing others with
  | nil => simp [ofMembers, splitTag]
  | cons m ms ih =>
    obtain ⟨k, v⟩ := m
    simp only [List.map_cons, List.mem_cons, not_or] at htag
    have hrest := ih htag.2 (fun m hm => h m (by simp [hm])) (others ++ [(some k, ofValue v)])
    have hv : toValue (ofValue v) = .ok v := h (k, v) (by simp)
    rw [List.append_assoc] at hrest
    rw [ofMembers, splitTag, if_neg (Ne.symm htag.1), hv]
    exact hrest

theorem toTagged_ofValue {tag kind : String} {choose : String → Option (Reader α)}
    {read : Reader α} {ms : List (String × Value)} {a : α} (hchoose : choose kind = some read)
    (htag : tag ∉ ms.map (·.1)) (hvalues : ∀ m ∈ ms, toValue (ofValue m.2) = .ok m.2)
    (hread : read (ofValue (.object ms)) = .ok a) :
    toTagged tag choose (ofValue (.object ((tag, .string kind) :: ms))) = .ok a := by
  have hnamed : toNamed choose (ofValue (.string kind)) = .ok read := by
    simp [toNamed, ofValue, toText, hchoose, bind, Except.bind, pure, Except.pure]
  have hsplit : splitTag tag choose none [] (ofMembers ((tag, .string kind) :: ms)) =
      .ok (some read, ofMembers ms) := by
    rw [ofMembers, splitTag, if_pos rfl, hnamed]
    exact splitTag_ofMembers htag hvalues []
  have hheld : readHeld read (ofValue (.object ms)) = .ok a := by
    rw [readHeld, hread]
    rfl
  rw [ofValue, toTagged, hsplit]
  exact hheld

end Document
end TablePlanner.Json
