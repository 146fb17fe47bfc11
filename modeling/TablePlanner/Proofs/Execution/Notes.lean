import TablePlanner.Proofs.Table.WellFormed

/-! What an operation notes and which columns it leaves, said by names alone: a name counts as
present or absent, whatever place its column has. -/
namespace TablePlanner
open Json

namespace Table

theorem columnIndex?_eq_none_iff {t : Table} {name : String} :
    t.columnIndex? name = none ↔ name ∉ t.columns := List.idxOf?_eq_none_iff

theorem exists_columnIndex?_iff {t : Table} {name : String} :
    (∃ i, t.columnIndex? name = some i) ↔ name ∈ t.columns := by
  rw [← Option.isSome_iff_exists]
  exact List.isSome_idxOf?

theorem getD_of_columnIndex? {t : Table} {name : String} {i : Nat}
    (h : t.columnIndex? name = some i) : t.columns.getD i "" = name := by
  obtain ⟨hi, hname, -⟩ := List.idxOf?_eq_some_iff.1 h
  rw [← List.getElem_eq_getD (h := hi) "", hname]

theorem columnIndex?_inj {t : Table} {name other : String} {i : Nat}
    (h : t.columnIndex? name = some i) (h' : t.columnIndex? other = some i) : name = other := by
  rw [← getD_of_columnIndex? h, getD_of_columnIndex? h']

theorem mem_addColumns {columns names : List String} {c : String} :
    c ∈ addColumns columns names ↔ c ∈ columns ∨ c ∈ names := by
  unfold addColumns
  induction names generalizing columns with
  | nil => simp
  | cons name names ih =>
    rw [List.foldl_cons, ih]
    by_cases hname : name ∈ columns
    · rw [if_pos hname, List.mem_cons]
      constructor
      · rintro (h | h)
        · exact .inl h
        · exact .inr (.inr h)
      · rintro (h | rfl | h)
        · exact .inl h
        · exact .inl hname
        · exact .inr h
    · rw [if_neg hname, List.mem_append, List.mem_singleton, List.mem_cons, or_assoc]

def absent (t : Table) (names : List String) : List String := names.filter (· ∉ t.columns)

/-- The columns among some names, each once, in the order of the names. -/
def present (t : Table) (names : List String) : List String :=
  addColumns [] (names.filter (· ∈ t.columns))

section
variable {t : Table} {names : List String}

theorem mem_absent {name : String} : name ∈ t.absent names ↔ name ∈ names ∧ name ∉ t.columns := by
  simp [absent]

theorem mem_present {name : String} : name ∈ t.present names ↔ name ∈ names ∧ name ∈ t.columns := by
  simp [present, mem_addColumns]

theorem present_single {name : String} (h : name ∈ t.columns) : t.present [name] = [name] := by
  simp [present, addColumns, h]

theorem present_eq_nil_iff : t.present names = [] ↔ ∀ name ∈ names, name ∉ t.columns := by
  simp only [List.eq_nil_iff_forall_not_mem, mem_present, not_and]

theorem absent_eq_nil_iff : t.absent names = [] ↔ ∀ name ∈ names, name ∈ t.columns := by
  simp only [List.eq_nil_iff_forall_not_mem, mem_absent, not_and, not_not]

theorem unknownNames_eq_absent (t : Table) (names : List String) :
    t.unknownNames names = t.absent names := by
  unfold unknownNames absent
  refine List.filter_congr fun name _ => ?_
  rw [Bool.eq_iff_iff, Option.isNone_iff_eq_none, columnIndex?_eq_none_iff, decide_eq_true_iff]

theorem pickColumns_knownColumns (t : Table) (names : List String) :
    t.pickColumns (t.knownColumns names) = t.present names := by
  induction names using List.reverseRecOn with
  | nil => rfl
  | append_singleton names name ih =>
    have hpresent : t.present (names ++ [name]) =
        addColumns (t.present names) ([name].filter (· ∈ t.columns)) := by
      rw [present, List.filter_append, addColumns, List.foldl_append]
      rfl
    rw [knownColumns_concat, hpresent]
    cases hname : t.columnIndex? name with
    | none =>
      have habsent : name ∉ t.columns := columnIndex?_eq_none_iff.1 hname
      simpa [habsent, addColumns] using ih
    | some i =>
      have hcolumn : name ∈ t.columns := exists_columnIndex?_iff.1 ⟨i, hname⟩
      have hknown : i ∈ t.knownColumns names ↔ name ∈ t.present names := by
        rw [mem_knownColumns, mem_present]
        constructor
        · rintro ⟨other, hother, hi⟩
          exact ⟨columnIndex?_inj hi hname ▸ hother, hcolumn⟩
        · exact fun h => ⟨name, h.1, hname⟩
      by_cases hi : i ∈ t.knownColumns names
      · simpa [hi, hcolumn, addColumns, hknown.1 hi] using ih
      · have hnew : name ∉ t.present names := mt hknown.2 hi
        have hpicked : t.pickColumns (t.knownColumns names ++ [i]) = t.present names ++ [name] := by
          rw [← ih, ← getD_of_columnIndex? hname]
          exact List.map_append
        simp [hi, hcolumn, addColumns, hnew, hpicked]

theorem knownColumns_eq_nil_iff : t.knownColumns names = [] ↔ t.present names = [] := by
  rw [← pickColumns_knownColumns, pickColumns, List.map_eq_nil_iff]

end

/-- The cell of a row in the column of a name. -/
def cellOf (t : Table) (row : Row) (name : String) : Value := cell row (t.columns.idxOf name)

/-- The cells in the column of a name, row by row. -/
def columnOf (t : Table) (name : String) : List Value := t.rows.map (t.cellOf · name)

theorem cellOf_mem {t : Table} {row : Row} (h : row ∈ t.rows) (name : String) :
    t.cellOf row name ∈ t.columnOf name :=
  List.mem_map_of_mem h

def hasNullAmong (t : Table) (keys : List String) (row : Row) : Bool :=
  (t.present keys).any fun key => (t.cellOf row key).isNull

theorem cellOf_of_columnIndex? {t : Table} {name : String} {i : Nat}
    (h : t.columnIndex? name = some i) (row : Row) : t.cellOf row name = cell row i := by
  have hi : t.columns.idxOf name = i := by
    rw [List.idxOf_eq_getD_idxOf?]
    unfold columnIndex? at h
    rw [h, Option.getD_some]
  rw [cellOf, hi]

theorem hasNullKey_eq (t : Table) (keys : List String) (row : Row) :
    Grouping.hasNullKey (t.knownColumns keys) row = t.hasNullAmong keys row := by
  rw [Bool.eq_iff_iff]
  simp only [Grouping.hasNullKey, pickCells, hasNullAmong, List.any_map, List.any_eq_true,
    Function.comp, mem_knownColumns, mem_present]
  constructor
  · rintro ⟨i, ⟨key, hkey, hi⟩, hnull⟩
    refine ⟨key, ⟨hkey, exists_columnIndex?_iff.1 ⟨i, hi⟩⟩, ?_⟩
    rwa [cellOf_of_columnIndex? hi]
  · rintro ⟨key, ⟨hkey, hcolumn⟩, hnull⟩
    obtain ⟨i, hi⟩ := exists_columnIndex?_iff.2 hcolumn
    refine ⟨i, ⟨key, hkey, hi⟩, ?_⟩
    rwa [cellOf_of_columnIndex? hi] at hnull

end Table

namespace Aggregation

/-- Whether there is something to aggregate. A count reads no column. -/
def HasSource (a : Aggregation) (t : Table) : Prop := a.op = .count ∨ a.field ∈ t.columns

instance (a : Aggregation) (t : Table) : Decidable (a.HasSource t) :=
  inferInstanceAs (Decidable (_ ∨ _))

def note? (a : Aggregation) (t : Table) (taken : List String) : Option Note :=
  if a.HasSource t then
    if a.label ∈ taken then some (.duplicateLabel a.label) else none
  else some (.droppedAggregation a.field a.label)

end Aggregation

namespace Grouping

def taken (t : Table) (keys : List String) (before : List Aggregation) : List String :=
  t.present keys ++ (before.filter (·.HasSource t)).map (·.label)

def noteAt? (t : Table) (keys : List String) (aggregations : List Aggregation)
    (p : Aggregation × Nat) : Option Note :=
  p.1.note? t (taken t keys (aggregations.take p.2))

def notesOn (t : Table) (keys : List String) (aggregations : List Aggregation) : List Note :=
  aggregations.zipIdx.filterMap (noteAt? t keys aggregations)

def labelsOn (t : Table) (keys : List String) (aggregations : List Aggregation) : List String :=
  (aggregations.zipIdx.filter fun p => noteAt? t keys aggregations p = none).map (·.1.label)

theorem source?_eq_none_iff {t : Table} {a : Aggregation} :
    source? t a = none ↔ ¬ a.HasSource t := by
  unfold source? Aggregation.HasSource
  by_cases hcount : a.op = .count
  · simp [hcount]
  · simp [hcount, Table.columnIndex?_eq_none_iff]

/-- Acceptance behind some aggregations. The columns so far may miss labels that are taken twice,
so they are compared with the taken labels as sets. -/
theorem accept_behind {t : Table} {keys columns : List String} {before : List Aggregation}
    (hcolumns : ∀ label, label ∈ columns ↔ label ∈ taken t keys before)
    (rest : List Aggregation) :
    (accept t columns rest).2 =
        (rest.zipIdx before.length).filterMap (noteAt? t keys (before ++ rest)) ∧
      (accept t columns rest).1.map (·.aggregation.label) =
        ((rest.zipIdx before.length).filter
          fun p => noteAt? t keys (before ++ rest) p = none).map (·.1.label) := by
  induction rest generalizing columns before with
  | nil => exact ⟨rfl, rfl⟩
  | cons a rest ih =>
    have hnote : noteAt? t keys (before ++ a :: rest) (a, before.length) =
        a.note? t (taken t keys before) := by
      simp [noteAt?]
    have happend : before ++ a :: rest = (before ++ [a]) ++ rest := by simp
    have hlength : before.length + 1 = (before ++ [a]).length := by simp
    rw [List.zipIdx_cons, List.filterMap_cons, List.filter_cons, hnote]
    unfold accept
    cases hsource : source? t a with
    | none =>
      have hno : ¬ a.HasSource t := source?_eq_none_iff.1 hsource
      have hsame : taken t keys (before ++ [a]) = taken t keys before := by simp [taken, hno]
      have hcolumns' : ∀ label, label ∈ columns ↔ label ∈ taken t keys (before ++ [a]) :=
        hsame ▸ hcolumns
      obtain ⟨hnotes, hlabels⟩ := ih hcolumns'
      rw [← happend, ← hlength] at hnotes hlabels
      simp [Aggregation.note?, hno, hnotes, hlabels]
    | some source =>
      have hhas : a.HasSource t := by
        by_contra hno
        rw [source?_eq_none_iff.2 hno] at hsource
        cases hsource
      have hmore : taken t keys (before ++ [a]) = taken t keys before ++ [a.label] := by
        simp [taken, hhas]
      by_cases hlabel : a.label ∈ columns
      · have hcolumns' : ∀ label, label ∈ columns ↔ label ∈ taken t keys (before ++ [a]) := by
          intro label
          rw [hmore, List.mem_append, List.mem_singleton, ← hcolumns]
          exact ⟨.inl, fun h => h.elim id (· ▸ hlabel)⟩
        obtain ⟨hnotes, hlabels⟩ := ih hcolumns'
        rw [← happend, ← hlength] at hnotes hlabels
        simp [Aggregation.note?, hhas, hlabel, (hcolumns _).1 hlabel, hnotes, hlabels]
      · have hcolumns' : ∀ label,
            label ∈ columns ++ [a.label] ↔ label ∈ taken t keys (before ++ [a]) := by
          intro label
          rw [hmore, List.mem_append, List.mem_append, hcolumns]
        obtain ⟨hnotes, hlabels⟩ := ih hcolumns'
        rw [← happend, ← hlength] at hnotes hlabels
        simp [Aggregation.note?, hhas, hlabel, mt (hcolumns _).2 hlabel, hnotes, hlabels]

theorem accept_eq (t : Table) (keys : List String) (aggregations : List Aggregation) :
    (accept t (t.present keys) aggregations).2 = notesOn t keys aggregations ∧
      (accept t (t.present keys) aggregations).1.map (·.aggregation.label) =
        labelsOn t keys aggregations := by
  have hcolumns : ∀ label, label ∈ t.present keys ↔ label ∈ taken t keys [] := by simp [taken]
  exact accept_behind hcolumns aggregations

end Grouping

namespace Operation

/-- The notes that an operation takes on a table. -/
def notesOn (t : Table) : Operation → List Note
  | select fields =>
    if fields ≠ [] ∧ ∀ field ∈ fields, field ∉ t.columns then [.emptySelection fields]
    else if ∀ field ∈ fields, field ∈ t.columns then []
    else [.unknownFields (t.absent fields)]
  | filter field _ => if field ∈ t.columns then [] else [.missingField field]
  | groupBy keys aggregations =>
    if ∀ key ∈ keys, key ∉ t.columns then [.noGroupKeys keys]
    else
      (if ∀ key ∈ keys, key ∈ t.columns then [] else [.missingGroupKeys (t.absent keys)]) ++
        Grouping.notesOn t keys aggregations ++
        if 0 < t.rows.countP (t.hasNullAmong keys) then
          [.nullGroupKeys (t.rows.countP (t.hasNullAmong keys))]
        else []
  | orderBy field _ => if field ∈ t.columns then [] else [.missingField field]
  | limit count => if count ≤ 0 then [.nonPositiveLimit count] else []

/-- The columns of the table after an operation. -/
def columnsOn (t : Table) : Operation → List String
  | select fields => if ∀ field ∈ fields, field ∉ t.columns then t.columns else t.present fields
  | groupBy keys aggregations =>
    if ∀ key ∈ keys, key ∉ t.columns then t.columns
    else t.present keys ++ Grouping.labelsOn t keys aggregations
  | filter .. | orderBy .. | limit _ => t.columns

/-- The columns that an operation names to work on. -/
def names : Operation → List String
  | select fields => fields
  | filter field _ | orderBy field _ => [field]
  | groupBy keys aggregations =>
    keys ++ (aggregations.filter fun a => a.op ≠ .count).map (·.field)
  | limit _ => []

/-- The columns that an operation asks to see in its result. -/
def shows : Operation → List String
  | select fields => fields
  | filter field _ | orderBy field _ => [field]
  | groupBy keys aggregations => keys ++ aggregations.map (·.label)
  | limit _ => []

end Operation

namespace Table

theorem select_eq (t : Table) (fields : List String) :
    (t.select fields).2 = (Operation.select fields).notesOn t ∧
      (t.select fields).1.columns = (Operation.select fields).columnsOn t := by
  simp only [Operation.notesOn, Operation.columnsOn]
  by_cases hnone : ∀ field ∈ fields, field ∉ t.columns
  · have hknown : t.knownColumns fields = [] :=
      knownColumns_eq_nil_iff.2 (present_eq_nil_iff.2 hnone)
    by_cases hempty : fields = []
    · simp [Table.select, hempty]
    · rw [if_pos ⟨hempty, hnone⟩, if_pos hnone]
      simp [Table.select, hempty, hknown]
  · have hknown : t.knownColumns fields ≠ [] :=
      mt knownColumns_eq_nil_iff.1 (mt present_eq_nil_iff.1 hnone)
    have hempty : fields ≠ [] := by
      rintro rfl
      simp at hnone
    rw [if_neg fun h => hnone h.2, if_neg hnone]
    simp [Table.select, hempty, hknown, unknownNames_eq_absent, absent_eq_nil_iff,
      pickColumns_knownColumns]

theorem groupBy_eq {t r : Table} {keys : List String} {aggregations : List Aggregation}
    {notes : List Note} (h : t.groupBy keys aggregations = .ok (r, notes)) :
    notes = (Operation.groupBy keys aggregations).notesOn t ∧
      r.columns = (Operation.groupBy keys aggregations).columnsOn t := by
  simp only [Operation.notesOn, Operation.columnsOn]
  rcases groupBy_ok h with ⟨hknown, rfl, rfl⟩ | ⟨hknown, rows, rfl, -, rfl⟩
  · have hnone := present_eq_nil_iff.1 (knownColumns_eq_nil_iff.1 hknown)
    rw [if_pos hnone, if_pos hnone]
    exact ⟨rfl, rfl⟩
  · have hsome := mt present_eq_nil_iff.2 (mt knownColumns_eq_nil_iff.2 hknown)
    have hnull : Grouping.hasNullKey (t.knownColumns keys) = t.hasNullAmong keys :=
      funext (t.hasNullKey_eq keys)
    obtain ⟨hnotes, hlabels⟩ := Grouping.accept_eq t keys aggregations
    rw [if_neg hsome, if_neg hsome, pickColumns_knownColumns, hnotes, hlabels, hnull,
      unknownNames_eq_absent]
    simp only [List.isEmpty_iff, absent_eq_nil_iff, Nat.pos_iff_ne_zero, ite_not, and_self]

end Table

namespace Grouping

theorem dropped_or_duplicate {t : Table} {keys : List String} {aggregations : List Aggregation}
    {note : Note} (h : note ∈ notesOn t keys aggregations) :
    (∃ field label, note = .droppedAggregation field label) ∨
      ∃ label, note = .duplicateLabel label := by
  obtain ⟨p, -, hp⟩ := List.mem_filterMap.1 h
  unfold noteAt? Aggregation.note? at hp
  split at hp
  · split at hp
    · cases hp
      exact .inr ⟨_, rfl⟩
    · cases hp
  · cases hp
    exact .inl ⟨_, _, rfl⟩

theorem of_notesOn_eq_nil {t : Table} {keys : List String} {aggregations : List Aggregation}
    (h : notesOn t keys aggregations = []) :
    (∀ a ∈ aggregations, a.HasSource t) ∧
      labelsOn t keys aggregations = aggregations.map (·.label) := by
  have hnone : ∀ p ∈ aggregations.zipIdx, noteAt? t keys aggregations p = none :=
    List.filterMap_eq_nil_iff.1 h
  constructor
  · intro a ha
    obtain ⟨i, hi⟩ := List.mem_iff_getElem?.1 ha
    have hnote := hnone (a, i) (List.mem_zipIdx_iff_getElem?.2 hi)
    by_contra hno
    simp [noteAt?, Aggregation.note?, hno] at hnote
  · have hall : (aggregations.zipIdx.filter fun p => noteAt? t keys aggregations p = none) =
        aggregations.zipIdx := List.filter_eq_self.2 (by simpa using hnone)
    have hfst : aggregations.zipIdx.map Prod.fst = aggregations := List.zipIdx_map_fst _ _
    rw [labelsOn, hall]
    conv_rhs => rw [← hfst, List.map_map]
    rfl

end Grouping

/-- Whether a note stands for an operation that did nothing at all. -/
def Note.IsSkip : Note → Prop
  | missingField _ | emptySelection _ | noGroupKeys _ | nonPositiveLimit _ => True
  | unknownFields _ | missingGroupKeys _ | droppedAggregation .. | duplicateLabel _
  | nullGroupKeys _ => False

namespace Operation
variable {op : Operation} {t u : Table} {notes : List Note}

theorem eq_on_of_apply (h : op.apply t = .ok (u, notes)) :
    notes = op.notesOn t ∧ u.columns = op.columnsOn t := by
  cases op with
  | select fields =>
    have happly : t.select fields = (u, notes) := Except.ok.inj h
    have hselect := t.select_eq fields
    rwa [happly] at hselect
  | filter field value =>
    cases hi : t.columnIndex? field with
    | none =>
      have habsent := Table.columnIndex?_eq_none_iff.1 hi
      simp only [apply, Table.filter, hi] at h
      cases h
      simp [notesOn, columnsOn, habsent]
    | some i =>
      have hcolumn := Table.exists_columnIndex?_iff.1 ⟨i, hi⟩
      simp only [apply, Table.filter, hi] at h
      cases h
      simp [notesOn, columnsOn, hcolumn]
  | groupBy keys aggregations => exact Table.groupBy_eq h
  | orderBy field direction =>
    cases hi : t.columnIndex? field with
    | none =>
      have habsent := Table.columnIndex?_eq_none_iff.1 hi
      simp only [apply, Table.orderBy, hi] at h
      cases h
      simp [notesOn, columnsOn, habsent]
    | some i =>
      have hcolumn := Table.exists_columnIndex?_iff.1 ⟨i, hi⟩
      simp only [apply, Table.orderBy, hi] at h
      cases h
      simp [notesOn, columnsOn, hcolumn]
  | limit count =>
    simp only [apply, Table.limit] at h
    split at h <;> next hcount =>
      cases h
      simp [notesOn, columnsOn, hcount, Table.head]

theorem eq_of_isSkip (h : op.apply t = .ok (u, notes)) {note : Note} (hnote : note ∈ notes)
    (hskip : note.IsSkip) : u = t := by
  cases op with
  | select fields =>
    simp only [apply, Table.select, Except.ok.injEq] at h
    split at h
    · cases h
      rfl
    · split at h
      · cases h
        rfl
      · cases h
        split at hnote
        · cases hnote
        · cases List.mem_singleton.1 hnote
          cases hskip
  | filter field value =>
    simp only [apply, Table.filter] at h
    split at h
    · cases h
      rfl
    · cases h
      cases hnote
  | groupBy keys aggregations =>
    rcases Table.groupBy_ok h with ⟨-, hu, -⟩ | ⟨-, -, -, -, hnotes⟩
    · exact hu
    · rw [hnotes, Table.pickColumns_knownColumns, (Grouping.accept_eq t keys aggregations).1] at hnote
      rcases List.mem_append.1 hnote with hnote | hnote
      · rcases List.mem_append.1 hnote with hnote | hnote
        · split at hnote
          · cases hnote
          · cases List.mem_singleton.1 hnote
            cases hskip
        · rcases Grouping.dropped_or_duplicate hnote with ⟨field, label, rfl⟩ | ⟨label, rfl⟩ <;>
            cases hskip
      · split at hnote
        · cases hnote
        · cases List.mem_singleton.1 hnote
          cases hskip
  | orderBy field direction =>
    simp only [apply, Table.orderBy] at h
    split at h
    · cases h
      rfl
    · cases h
      cases hnote
  | limit count =>
    simp only [apply, Table.limit] at h
    split at h
    · cases h
      rfl
    · cases h
      cases hnote

theorem of_notesOn_eq_nil (h : op.notesOn t = []) :
    (∀ name ∈ op.names, name ∈ t.columns) ∧ ∀ name ∈ op.shows, name ∈ op.columnsOn t := by
  cases op with
  | select fields =>
    simp only [notesOn] at h
    split at h
    · cases h
    · next hsome =>
      split at h
      · next hall =>
        refine ⟨hall, fun name hname => ?_⟩
        have hfound : ¬ ∀ field ∈ fields, field ∉ t.columns := fun hnone =>
          hnone name hname (hall name hname)
        rw [columnsOn, if_neg hfound, Table.mem_present]
        exact ⟨hname, hall name hname⟩
      · cases h
  | groupBy keys aggregations =>
    simp only [notesOn] at h
    split at h
    · cases h
    · next hsome =>
      rw [List.append_eq_nil_iff, List.append_eq_nil_iff] at h
      obtain ⟨⟨hkeys, haggregations⟩, -⟩ := h
      obtain ⟨hsources, hlabels⟩ := Grouping.of_notesOn_eq_nil haggregations
      have hall : ∀ key ∈ keys, key ∈ t.columns := by
        split at hkeys
        · assumption
        · cases hkeys
      constructor
      · intro name hname
        rcases List.mem_append.1 hname with hname | hname
        · exact hall name hname
        · obtain ⟨a, ha, rfl⟩ := List.mem_map.1 hname
          obtain ⟨ha, hcount⟩ := List.mem_filter.1 ha
          exact (hsources a ha).resolve_left (of_decide_eq_true hcount)
      · intro name hname
        rw [columnsOn, if_neg hsome, hlabels, List.mem_append, Table.mem_present]
        rcases List.mem_append.1 hname with hname | hname
        · exact .inl ⟨hname, hall name hname⟩
        · exact .inr hname
  | filter field _ =>
    have hcolumn : field ∈ t.columns := by simpa [notesOn] using h
    simp [names, shows, columnsOn, hcolumn]
  | orderBy field _ =>
    have hcolumn : field ∈ t.columns := by simpa [notesOn] using h
    simp [names, shows, columnsOn, hcolumn]
  | limit count => simp [names, shows]

end Operation

end TablePlanner
