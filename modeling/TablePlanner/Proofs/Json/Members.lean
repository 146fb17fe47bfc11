import Mathlib.Data.List.Nodup
import TablePlanner.Json.Value

namespace TablePlanner.Json

theorem mem_putMember {key : String} {v : α} {ms : List (String × α)} {e : String × α}
    (h : e ∈ putMember key v ms) : e = (key, v) ∨ e ∈ ms := by
  induction ms with
  | nil => exact .inl (List.mem_singleton.1 h)
  | cons m ms ih =>
    unfold putMember at h
    split at h
    · next hkey =>
      rcases List.mem_cons.1 h with h | h
      · exact .inl (hkey ▸ h)
      · exact .inr (List.mem_cons_of_mem _ h)
    · rcases List.mem_cons.1 h with h | h
      · exact .inr (by simp [h])
      · exact (ih h).imp_right (List.mem_cons_of_mem _)

theorem putMember_of_new {key : String} {ms : List (String × α)} (h : key ∉ ms.map (·.1)) (v : α) :
    putMember key v ms = ms ++ [(key, v)] := by
  induction ms with
  | nil => rfl
  | cons m ms ih =>
    obtain ⟨k, w⟩ := m
    simp only [List.map_cons, List.mem_cons, not_or] at h
    simp [putMember, Ne.symm h.1, ih h.2]

theorem putMember_of_lookup {key : String} {v : α} {ms : List (String × α)}
    (h : ms.lookup key = some v) : putMember key v ms = ms := by
  induction ms with
  | nil => cases h
  | cons m ms ih =>
    obtain ⟨k, w⟩ := m
    by_cases hk : k = key
    · subst hk
      have hw : w = v := by simpa [List.lookup_cons] using h
      simp [putMember, hw]
    · have hne : (key == k) = false := by simpa using Ne.symm hk
      rw [List.lookup_cons, hne] at h
      simp [putMember, hk, ih h]

theorem foldl_putMember {f : α → β} {held : List (String × β)} {rs : List (String × α)}
    (hkeys : (held.map (·.1) ++ rs.map (·.1)).Nodup) :
    rs.foldl (fun held r => putMember r.1 (f r.2) held) held =
      held ++ rs.map fun r => (r.1, f r.2) := by
  induction rs generalizing held with
  | nil => simp
  | cons r rs ih =>
    have hnew : r.1 ∉ held.map (·.1) := by
      intro hr
      exact (List.nodup_append.1 hkeys).2.2 r.1 hr r.1 (by simp) rfl
    rw [List.foldl_cons, putMember_of_new hnew, ih (by simpa using hkeys)]
    simp

theorem lookup_of_mem {ms : List (String × α)} (hkeys : (ms.map (·.1)).Nodup) {key : String} {v : α}
    (h : (key, v) ∈ ms) : ms.lookup key = some v := by
  obtain ⟨before, after, rfl⟩ := List.append_of_mem h
  rw [List.map_append, List.nodup_append] at hkeys
  refine List.lookup_eq_some_iff.2 ⟨before, after, rfl, fun e he => ?_⟩
  have hne := hkeys.2.2 e.1 (List.mem_map_of_mem he) key (by simp)
  simpa using Ne.symm hne

theorem lookup_map_snd {f : α → β} {ms : List (String × α)} {key : String} {v : α}
    (h : ms.lookup key = some v) : (ms.map fun m => (m.1, f m.2)).lookup key = some (f v) := by
  obtain ⟨before, after, rfl, hne⟩ := List.lookup_eq_some_iff.1 h
  refine List.lookup_eq_some_iff.2
    ⟨before.map fun m => (m.1, f m.2), after.map fun m => (m.1, f m.2), by simp, ?_⟩
  intro e he
  obtain ⟨m, hm, rfl⟩ := List.mem_map.1 he
  exact hne m hm

end TablePlanner.Json
