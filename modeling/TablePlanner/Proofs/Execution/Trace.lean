import TablePlanner.Proofs.Execution.Notes

namespace TablePlanner

section
variable {id : String} {index : Nat} {t result : Table} {ops more : List Operation}
  {trace : List Diagnostic} {d : Diagnostic}

theorem runFrom_append (h : runFrom id index t (ops ++ more) = .ok (result, trace)) :
    ∃ u earlier later, runFrom id index t ops = .ok (u, earlier) ∧
      runFrom id (index + ops.length) u more = .ok (result, later) ∧ trace = earlier ++ later := by
  induction ops generalizing index t trace with
  | nil => exact ⟨t, [], trace, rfl, h, rfl⟩
  | cons op ops ih =>
    obtain ⟨v, notes, rest, happly, hrest, rfl⟩ := runFrom_cons_ok h
    obtain ⟨u, earlier, later, hops, hmore, rfl⟩ := ih hrest
    refine ⟨u, notes.map (⟨id, index, op.kind, ·⟩) ++ earlier, later, ?_, ?_, by simp⟩
    · simp only [runFrom, happly, hops]
      rfl
    · rwa [Nat.add_assoc, Nat.add_comm 1] at hmore

theorem mem_trace_of_runFrom (h : runFrom id index t ops = .ok (result, trace)) (hd : d ∈ trace) :
    d.table = id ∧ index ≤ d.index ∧ ∃ op, ops[d.index - index]? = some op ∧ d.kind = op.kind := by
  induction ops generalizing index t trace with
  | nil =>
    cases h
    cases hd
  | cons op ops ih =>
    obtain ⟨v, notes, rest, -, hrest, rfl⟩ := runFrom_cons_ok h
    rcases List.mem_append.1 hd with hd | hd
    · obtain ⟨note, -, rfl⟩ := List.mem_map.1 hd
      exact ⟨rfl, Nat.le_refl _, op, by simp, rfl⟩
    · obtain ⟨htable, hle, other, hother, hkind⟩ := ih hrest hd
      have hplace : d.index - index = d.index - (index + 1) + 1 := by omega
      refine ⟨htable, by omega, other, ?_, hkind⟩
      rwa [hplace, List.getElem?_cons_succ]

theorem index_lt_of_runFrom (h : runFrom id index t ops = .ok (result, trace)) (hd : d ∈ trace) :
    d.index < index + ops.length := by
  obtain ⟨-, -, op, hop, -⟩ := mem_trace_of_runFrom h hd
  have hlt := (List.getElem?_eq_some_iff.1 hop).1
  omega

theorem ordered_of_runFrom (h : runFrom id index t ops = .ok (result, trace)) :
    trace.Pairwise fun a b => a.index ≤ b.index := by
  induction ops generalizing index t trace with
  | nil =>
    cases h
    exact .nil
  | cons op ops ih =>
    obtain ⟨v, notes, rest, -, hrest, rfl⟩ := runFrom_cons_ok h
    refine List.pairwise_append.2 ⟨?_, ih hrest, ?_⟩
    · exact List.pairwise_map.2 (List.pairwise_of_forall fun _ _ => Nat.le_refl _)
    · intro a ha b hb
      obtain ⟨note, -, rfl⟩ := List.mem_map.1 ha
      have hlater := (mem_trace_of_runFrom hrest hb).2.1
      simp only
      omega

theorem notes_at_of_runFrom {op : Operation}
    (h : runFrom id index t (ops ++ op :: more) = .ok (result, trace)) :
    ∃ u v earlier notes, runFrom id index t ops = .ok (u, earlier) ∧
      op.apply u = .ok (v, notes) ∧
      (∃ upTo, runFrom id index t (ops ++ [op]) = .ok (v, upTo)) ∧
      (trace.filter (·.index = index + ops.length)).map (·.note) = notes := by
  rw [List.append_cons] at h
  obtain ⟨v, upTo, later, hupTo, hlater, rfl⟩ := runFrom_append h
  obtain ⟨u, earlier, own, hearlier, hown, rfl⟩ := runFrom_append hupTo
  obtain ⟨w, notes, rest, happly, hrest, rfl⟩ := runFrom_cons_ok hown
  cases hrest
  refine ⟨u, v, earlier, notes, hearlier, happly, ⟨_, hupTo⟩, ?_⟩
  have hbefore : earlier.filter (·.index = index + ops.length) = [] := by
    refine List.filter_eq_nil_iff.2 fun d hd => ?_
    have hlt := index_lt_of_runFrom hearlier hd
    simp only [decide_eq_true_eq]
    omega
  have hafter : later.filter (·.index = index + ops.length) = [] := by
    refine List.filter_eq_nil_iff.2 fun d hd => ?_
    have hle := (mem_trace_of_runFrom hlater hd).2.1
    simp only [List.length_append, List.length_singleton] at hle
    simp only [decide_eq_true_eq]
    omega
  simp [List.filter_append, hbefore, hafter, List.filter_map, Function.comp_def]

end

/-- What an operation that took a table to another says of itself by its notes. -/
structure Operation.Explained (op : Operation) (before after : Table) (notes : List Note) :
    Prop where
  notes_eq : notes = op.notesOn before
  columns_eq : after.columns = op.columnsOn before
  skipped : ∀ note ∈ notes, note.IsSkip → after = before
  unnoted : notes = [] →
    (∀ name ∈ op.names, name ∈ before.columns) ∧ ∀ name ∈ op.shows, name ∈ after.columns

theorem Operation.explained_of_apply {op : Operation} {t u : Table} {notes : List Note}
    (h : op.apply t = .ok (u, notes)) : op.Explained t u notes where
  notes_eq := (eq_on_of_apply h).1
  columns_eq := (eq_on_of_apply h).2
  skipped _ hnote hskip := eq_of_isSkip h hnote hskip
  unnoted hnone := by
    obtain ⟨hnotes, hcolumns⟩ := eq_on_of_apply h
    rw [hcolumns]
    exact of_notesOn_eq_nil (hnotes ▸ hnone)

/-- The trace of a recipe that ran is in the order of the operations and names them rightly, and
the notes with the index of an operation explain what it did to the table that those before it
left. -/
theorem Recipe.run_explained {r : Recipe} {source result : Table} {trace : List Diagnostic}
    (h : r.run source = .ok (result, trace)) :
    (trace.Pairwise fun a b => a.index ≤ b.index) ∧
    (∀ d ∈ trace, d.table = r.id ∧
      ∃ op, r.operations[d.index]? = some op ∧ d.kind = op.kind) ∧
    ∀ i op, r.operations[i]? = some op → ∃ before after,
      (∃ earlier, runFrom r.id 0 source (r.operations.take i) = .ok (before, earlier)) ∧
      (∃ upTo, runFrom r.id 0 source (r.operations.take (i + 1)) = .ok (after, upTo)) ∧
      op.Explained before after ((trace.filter (·.index = i)).map (·.note)) := by
  refine ⟨ordered_of_runFrom h, fun d hd => ?_, fun i op hop => ?_⟩
  · obtain ⟨htable, -, op, hop, hkind⟩ := mem_trace_of_runFrom h hd
    exact ⟨htable, op, hop, hkind⟩
  · obtain ⟨hi, rfl⟩ := List.getElem?_eq_some_iff.1 hop
    have hlength : (r.operations.take i).length = i := by simp; omega
    have hsplit : r.operations =
        r.operations.take i ++ r.operations[i] :: r.operations.drop (i + 1) := by
      simp
    unfold run at h
    rw [hsplit] at h
    obtain ⟨before, after, earlier, notes, hearlier, happly, hupTo, hnotes⟩ := notes_at_of_runFrom h
    rw [hlength, Nat.zero_add] at hnotes
    refine ⟨before, after, ⟨earlier, hearlier⟩, ?_, ?_⟩
    · rwa [List.take_succ_eq_append_getElem hi]
    · rw [hnotes]
      exact Operation.explained_of_apply happly

def strayRecipe : Recipe where
  id := "stray"
  title := "Stray names"
  operations :=
    [.select ["Amount", "Ghost", "Region"], .filter "Ghost" .null,
     .groupBy ["Region", "Ghost"]
       [⟨"Amount", .sum, "Total"⟩, ⟨"Ghost", .max, "Most"⟩, ⟨"Ghost", .count, "Total"⟩],
     .orderBy "Total" .descending, .limit 0]

def strayTrace : List Diagnostic :=
  [⟨"stray", 0, "SELECT", .unknownFields ["Ghost"]⟩, ⟨"stray", 1, "FILTER", .missingField "Ghost"⟩,
   ⟨"stray", 2, "GROUP_BY", .missingGroupKeys ["Ghost"]⟩,
   ⟨"stray", 2, "GROUP_BY", .droppedAggregation "Ghost" "Most"⟩,
   ⟨"stray", 2, "GROUP_BY", .duplicateLabel "Total"⟩,
   ⟨"stray", 2, "GROUP_BY", .nullGroupKeys 1⟩, ⟨"stray", 4, "LIMIT", .nonPositiveLimit 0⟩]

open Json in
theorem strayRecipe_explained :
    strayRecipe.run ⟨["Region", "Amount"], [[.string "Seoul", .int 3], [.null, .int 4]]⟩ =
        .ok (⟨["Region", "Total"], [[.string "Seoul", .int 3]]⟩, strayTrace) ∧
      strayTrace.length = 7 ∧ (strayTrace.Pairwise fun a b => a.index ≤ b.index) ∧
      ∀ op, strayRecipe.operations[2]? = some op → ∃ before after, op.Explained before after
        [.missingGroupKeys ["Ghost"], .droppedAggregation "Ghost" "Most", .duplicateLabel "Total",
          .nullGroupKeys 1] := by
  have hrun : strayRecipe.run
      ⟨["Region", "Amount"], [[.string "Seoul", .int 3], [.null, .int 4]]⟩ =
        .ok (⟨["Region", "Total"], [[.string "Seoul", .int 3]]⟩, strayTrace) := rfl
  obtain ⟨hordered, -, hat⟩ := Recipe.run_explained hrun
  refine ⟨hrun, rfl, hordered, fun op hop => ?_⟩
  obtain ⟨before, after, -, -, hexplained⟩ := hat 2 op hop
  exact ⟨before, after, hexplained⟩

end TablePlanner
