import Mathlib.Data.Option.Basic
import TablePlanner.Proofs.Execution.Trace
import TablePlanner.Proofs.Prompt.Detected

/-! A detector names columns that it found, and no operation of it drops one that a later operation
needs. One case does not fit: a group summary whose key is the column that its label would name. -/
namespace TablePlanner
open Prompt Vocabulary

/-- An operation that has its effect on every table with some columns and leaves them all there. -/
inductive Operation.Settled (columns : List String) : Operation → Prop
  | all : Settled columns .selectAll
  | select : Settled columns (.select columns)
  | filter {field : String} (h : field ∈ columns) (value : Json.Value) :
    Settled columns (.filter field value)
  | orderBy {field : String} (h : field ∈ columns) (direction : Direction) :
    Settled columns (.orderBy field direction)
  | limit {n : Int} (h : 0 < n) : Settled columns (.limit n)

section
variable {columns : List String} {op : Operation} {t : Table}

theorem Operation.Settled.notesOn_eq_nil (h : op.Settled columns)
    (hcolumns : ∀ name, name ∈ t.columns ↔ name ∈ columns) : op.notesOn t = [] := by
  cases h with
  | all => simp [selectAll, notesOn]
  | select =>
    have hall : ∀ name ∈ columns, name ∈ t.columns := fun name => (hcolumns name).2
    have hfound : ¬ (columns ≠ [] ∧ ∀ name ∈ columns, name ∉ t.columns) := by
      rintro ⟨hsome, hnone⟩
      obtain ⟨name, hname⟩ := List.exists_mem_of_ne_nil columns hsome
      exact hnone name hname (hall name hname)
    rw [notesOn, if_neg hfound, if_pos hall]
  | filter hfield value => exact if_pos ((hcolumns _).2 hfield)
  | orderBy hfield direction => exact if_pos ((hcolumns _).2 hfield)
  | limit hn => exact if_neg (by omega)

theorem Operation.Settled.mem_columnsOn (h : op.Settled columns)
    (hcolumns : ∀ name, name ∈ t.columns ↔ name ∈ columns) (name : String) :
    name ∈ op.columnsOn t ↔ name ∈ columns := by
  cases h with
  | all => simpa [selectAll, columnsOn] using hcolumns name
  | select =>
    rw [columnsOn]
    split
    · exact hcolumns name
    · rw [Table.mem_present, hcolumns, and_self]
  | filter | orderBy | limit => exact hcolumns name

theorem trace_eq_nil_of_settled {id : String} {index : Nat} {ops : List Operation} {result : Table}
    {trace : List Diagnostic} (hops : ∀ op ∈ ops, op.Settled columns)
    (hcolumns : ∀ name, name ∈ t.columns ↔ name ∈ columns)
    (h : runFrom id index t ops = .ok (result, trace)) : trace = [] := by
  induction ops generalizing index t trace with
  | nil =>
    cases h
    rfl
  | cons op ops ih =>
    rw [List.forall_mem_cons] at hops
    obtain ⟨u, notes, rest, happly, hrest, rfl⟩ := runFrom_cons_ok h
    obtain ⟨hnotes, hu⟩ := Operation.eq_on_of_apply happly
    have hkept : ∀ name, name ∈ u.columns ↔ name ∈ columns := by
      rw [hu]
      exact hops.1.mem_columnsOn hcolumns
    rw [hnotes, hops.1.notesOn_eq_nil hcolumns, ih hops.2 hkept hrest]
    rfl

end

namespace Prompt

theorem mem_of_findColumn? {s : Schema} {keywords : List String} {column : String}
    (h : s.findColumn? keywords = some column) : column ∈ s.columns :=
  List.mem_of_find?_eq_some h

theorem mem_of_groupKey? {ctx : Context} {key : String} (h : groupKey? ctx = some key) :
    key ∈ ctx.schema.columns := by
  unfold groupKey? at h
  rw [Option.orElse_eq_some, Option.orElse_eq_some] at h
  rcases h with h | ⟨-, h | ⟨-, h⟩⟩
  · obtain ⟨p, -, hp⟩ := List.exists_of_findSome?_eq_some h
    exact mem_of_findColumn? hp
  · exact mem_of_findColumn? h
  · exact List.mem_of_mem_head? h

/-- Whether the label of a group summary is the name of its key. -/
def Clashes (ctx : Context) (key : String) : Prop := (summaryAggregation ctx key).label = key

instance (ctx : Context) (key : String) : Decidable (Clashes ctx key) :=
  inferInstanceAs (Decidable (_ = _))

theorem hasSource_summaryAggregation {ctx : Context} {t : Table} (hctx : ctx.schema = t.schema)
    (key : String) : (summaryAggregation ctx key).HasSource t := by
  unfold summaryAggregation
  split
  · next amount hamount =>
    have hfound := (Option.filter_eq_some_iff.1 hamount).1
    rw [hctx] at hfound
    exact .inr (mem_of_findColumn? hfound)
  · exact .inl rfl

end Prompt

section
variable {t result : Table} {key : String} {a : Aggregation} {id : String} {direction : Direction}
  {trace : List Diagnostic} {d : Diagnostic}

theorem Grouping.noteAt?_single (hkey : key ∈ t.columns) (ha : a.HasSource t) :
    noteAt? t [key] [a] (a, 0) = if a.label = key then some (.duplicateLabel key) else none := by
  simp only [noteAt?, Aggregation.note?, if_pos ha, taken, Table.present_single hkey]
  by_cases hlabel : a.label = key <;> simp [hlabel]

theorem Operation.notesOn_groupBy_single (hkey : key ∈ t.columns) (ha : a.HasSource t) :
    (groupBy [key] [a]).notesOn t =
      (if a.label = key then [.duplicateLabel key] else []) ++
        if 0 < t.rows.countP (t.hasNullAmong [key]) then
          [.nullGroupKeys (t.rows.countP (t.hasNullAmong [key]))]
        else [] := by
  have hnone : ¬ ∀ name ∈ [key], name ∉ t.columns := by simpa using hkey
  have hall : ∀ name ∈ [key], name ∈ t.columns := by simpa using hkey
  have hnotes : Grouping.notesOn t [key] [a] =
      if a.label = key then [.duplicateLabel key] else [] := by
    rw [Grouping.notesOn, List.zipIdx_singleton, List.filterMap_cons,
      Grouping.noteAt?_single hkey ha]
    by_cases hlabel : a.label = key <;> simp [hlabel]
  rw [notesOn, if_neg hnone, if_pos hall, hnotes, List.nil_append]

theorem Operation.columnsOn_groupBy_single (hkey : key ∈ t.columns) (ha : a.HasSource t) :
    (groupBy [key] [a]).columnsOn t = if a.label = key then [key] else [key, a.label] := by
  have hnone : ¬ ∀ name ∈ [key], name ∉ t.columns := by simpa using hkey
  have hlabels : Grouping.labelsOn t [key] [a] = if a.label = key then [] else [a.label] := by
    rw [Grouping.labelsOn, List.zipIdx_singleton, List.filter_cons,
      Grouping.noteAt?_single hkey ha]
    by_cases hlabel : a.label = key <;> simp [hlabel]
  rw [columnsOn, if_neg hnone, Table.present_single hkey, hlabels]
  split <;> rfl

theorem groupSummary_of_run (hkey : key ∈ t.columns) (ha : a.HasSource t)
    (h : runFrom id 0 t [.groupBy [key] [a], .orderBy a.label direction] = .ok (result, trace)) :
    result.columns = (if a.label = key then [key] else [key, a.label]) ∧
      trace = ((Operation.groupBy [key] [a]).notesOn t).map (⟨id, 0, "GROUP_BY", ·⟩) := by
  obtain ⟨u, notes, rest, hgroup, hrest, rfl⟩ := runFrom_cons_ok h
  obtain ⟨v, more, last, horder, hlast, rfl⟩ := runFrom_cons_ok hrest
  cases hlast
  obtain ⟨hnotes, hu⟩ := Operation.eq_on_of_apply hgroup
  obtain ⟨hmore, hv⟩ := Operation.eq_on_of_apply horder
  rw [Operation.columnsOn_groupBy_single hkey ha] at hu
  have hlabel : a.label ∈ u.columns := by
    rw [hu]
    split <;> simp [*]
  have hquiet : more = [] := by
    rw [hmore]
    exact if_pos hlabel
  constructor
  · rw [hv, ← hu]
    rfl
  · rw [hnotes, hquiet]
    simp [Operation.kind]

end

namespace Prompt
variable {t result : Table} {prompt : String} {r : Recipe} {trace : List Diagnostic}

theorem groupSummary_agrees {ctx : Context} (hctx : ctx.schema = t.schema)
    (hr : groupSummaryRecipe? ctx = some r) (h : r.run t = .ok (result, trace)) :
    ∃ key, groupKey? ctx = some key ∧
      result.columns = (if Clashes ctx key then [key] else [key, (summaryAggregation ctx key).label]) ∧
      (∀ d ∈ trace, (∃ n, d.note = .nullGroupKeys n) ∨
        Clashes ctx key ∧ d.note = .duplicateLabel key) ∧
      (Clashes ctx key → ∃ d ∈ trace, d.table = r.id ∧ d.note = .duplicateLabel key) := by
  obtain ⟨-, key, hkey, hops⟩ := groupSummaryRecipe?_eq_some hr
  have hcolumn : key ∈ t.columns := by
    have hmem := mem_of_groupKey? hkey
    rwa [hctx] at hmem
  have hsource := hasSource_summaryAggregation hctx key
  unfold Recipe.run at h
  rw [hops] at h
  obtain ⟨hcolumns, htrace⟩ := groupSummary_of_run hcolumn hsource h
  rw [Operation.notesOn_groupBy_single hcolumn hsource] at htrace
  refine ⟨key, hkey, hcolumns, fun d hd => ?_, fun hclash => ?_⟩
  · rw [htrace] at hd
    obtain ⟨note, hnote, rfl⟩ := List.mem_map.1 hd
    rcases List.mem_append.1 hnote with hnote | hnote
    · split at hnote
      · next hclash => exact .inr ⟨hclash, List.mem_singleton.1 hnote⟩
      · cases hnote
    · split at hnote
      · exact .inl ⟨_, List.mem_singleton.1 hnote⟩
      · cases hnote
  · unfold Clashes at hclash
    refine ⟨⟨r.id, 0, "GROUP_BY", .duplicateLabel key⟩, ?_, rfl, rfl⟩
    rw [htrace, if_pos hclash]
    simp

section
variable {ctx : Context}

theorem settled_of_topAmount (hcandidates : ∀ n ∈ ctx.candidates, 0 < n)
    (hr : topAmountRecipe? ctx = some r) : ∀ op ∈ r.operations, op.Settled ctx.schema.columns := by
  obtain ⟨-, amount, limits, hamount, hops, hlimits⟩ := topAmountRecipe?_eq_some hr
  rw [hops]
  intro op hop
  rcases List.mem_append.1 hop with hop | hop
  · rw [List.mem_pair] at hop
    rcases hop with rfl | rfl
    · exact .select
    · exact .orderBy (mem_of_findColumn? hamount) _
  · obtain ⟨n, hn, rfl⟩ := hlimits op hop
    exact .limit (hcandidates n hn)

theorem settled_of_category {c : Category} (hr : c.recipe? ctx = some r) :
    ∀ op ∈ r.operations, op.Settled ctx.schema.columns := by
  obtain ⟨-, column, value, hcolumn, hops⟩ := category_recipe?_eq_some hr
  rw [hops]
  intro op hop
  rw [List.mem_pair] at hop
  rcases hop with rfl | rfl
  · exact .filter (mem_of_findColumn? hcolumn) _
  · exact .select

theorem settled_or_groupSummary {d : Detector} (hcandidates : ∀ n ∈ ctx.candidates, 0 < n)
    (hd : d ∈ Detector.standard) (hr : d.detect ctx = some r) (hid : r.id ≠ "detail_table") :
    ((∀ op ∈ r.operations, op.Settled ctx.schema.columns) ∧ r.id ≠ "group_summary_table") ∨
      groupSummaryRecipe? ctx = some r := by
  simp only [Detector.standard, List.mem_cons, List.not_mem_nil, or_false] at hd
  rcases hd with rfl | rfl | rfl | rfl | rfl | rfl
  · refine .inl ⟨settled_of_topAmount hcandidates hr, ?_⟩
    simp [(topAmountRecipe?_eq_some hr).1]
  · refine .inl ⟨settled_of_category hr, ?_⟩
    simp [(category_recipe?_eq_some hr).1, Category.region]
  · refine .inl ⟨settled_of_category hr, ?_⟩
    simp [(category_recipe?_eq_some hr).1, Category.category]
  · refine .inl ⟨settled_of_category hr, ?_⟩
    simp [(category_recipe?_eq_some hr).1, Category.payment]
  · exact .inr hr
  · exact absurd (detailRecipe?_eq_some hr).1 hid

end

namespace Planner

def standardContext (prompt : String) (t : Table) : Context :=
  .of prompt t.schema standardCandidates

/-- A recipe of a standard proposal that is no detail table is silent on its table, or it is the
group summary. -/
theorem silent_or_groupSummary (hr : r ∈ (standard.propose prompt t.schema).plan.recipes)
    (hid : r.id ≠ "detail_table") (h : r.run t = .ok (result, trace)) :
    (trace = [] ∧ r.id ≠ "group_summary_table") ∨
      groupSummaryRecipe? (standardContext prompt t) = some r := by
  have hcolumns : ∀ name, name ∈ t.columns ↔ name ∈ t.schema.columns := fun _ => Iff.rfl
  rcases eq_default_or_detected hr with rfl | ⟨d, hd, hdetect⟩
  · have hsettled : ∀ op ∈ defaultRecipe.operations, op.Settled t.schema.columns :=
      List.forall_mem_singleton.2 .all
    exact .inl ⟨trace_eq_nil_of_settled hsettled hcolumns h, by decide⟩
  · have hcandidates : ∀ n ∈ standardCandidates, 0 < n := by decide
    rcases settled_or_groupSummary hcandidates hd hdetect hid with ⟨hsettled, hother⟩ | hsummary
    · exact .inl ⟨trace_eq_nil_of_settled hsettled hcolumns h, hother⟩
    · exact .inr hsummary

/-- On the table whose columns it was planned for, a standard proposal that runs notes nothing
outside of detail tables but rows without a group and, if the label of its group summary is the
name of the key, that label. The summary has the key and the label as its two columns, and in that
one case the key alone. -/
theorem proposal_fits_its_table {o : Outcome}
    (h : (standard.propose prompt t.schema).plan.run t = .ok o) :
    (∀ d ∈ o.trace, d.table ≠ "detail_table" →
      (∃ n, d.note = .nullGroupKeys n) ∨
      d.table = "group_summary_table" ∧ ∃ key, groupKey? (standardContext prompt t) = some key ∧
        Clashes (standardContext prompt t) key ∧ d.note = .duplicateLabel key) ∧
    ∀ e ∈ o.results, e.1 = "group_summary_table" →
      ∃ key, groupKey? (standardContext prompt t) = some key ∧
        (¬ Clashes (standardContext prompt t) key →
          e.2.columns = [key, (summaryAggregation (standardContext prompt t) key).label]) ∧
        (Clashes (standardContext prompt t) key → e.2.columns = [key] ∧
          ∃ d ∈ o.trace, d.table = "group_summary_table" ∧ d.note = .duplicateLabel key) := by
  constructor
  · intro d hd htable
    obtain ⟨r, hr, result, trace, hrun, hd⟩ := (mem_trace_of_runRecipes h).1 hd
    have hid : d.table = r.id := (mem_trace_of_runFrom hrun hd).1
    rcases silent_or_groupSummary hr (hid ▸ htable) hrun with ⟨hnil, -⟩ | hsummary
    · rw [hnil] at hd
      cases hd
    · obtain ⟨key, hkey, -, hnotes, -⟩ := groupSummary_agrees rfl hsummary hrun
      rcases hnotes d hd with hnull | ⟨hclash, hnote⟩
      · exact .inl hnull
      · exact .inr ⟨hid.trans (groupSummaryRecipe?_eq_some hsummary).1, key, hkey, hclash, hnote⟩
  · intro e he hsummaryId
    obtain ⟨r, hr, hid, trace, hrun⟩ := exists_of_mem_forall₂ (runRecipes_ok h) he
    have hname : r.id = "group_summary_table" := hid.symm.trans hsummaryId
    have hdetail : r.id ≠ "detail_table" := by
      rw [hname]
      decide
    rcases silent_or_groupSummary hr hdetail hrun with ⟨-, hother⟩ | hsummary
    · exact absurd hname hother
    · obtain ⟨key, hkey, hcolumns, -, hnoted⟩ := groupSummary_agrees rfl hsummary hrun
      refine ⟨key, hkey, fun hclash => hcolumns.trans (if_neg hclash), fun hclash => ?_⟩
      obtain ⟨d, hd, htable, hnote⟩ := hnoted hclash
      refine ⟨hcolumns.trans (if_pos hclash), d, ?_, htable.trans hname, hnote⟩
      exact (mem_trace_of_runRecipes h).2 ⟨r, hr, e.2, trace, hrun, hd⟩

def sales : Table := ⟨["지역", "Amount"], [[.string "서울", .int 3], [.null, .int 4]]⟩

theorem sales_proposal_fits_its_table :
    (standard.propose "지역별 합계" sales.schema).plan.run sales =
        .ok ⟨[("group_summary_table", ⟨["지역", "합계"], [[.string "서울", .int 3]]⟩)],
          [⟨"group_summary_table", 0, "GROUP_BY", .nullGroupKeys 1⟩]⟩ ∧
      ∃ key, groupKey? (standardContext "지역별 합계" sales) = some key ∧
        (¬ Clashes (standardContext "지역별 합계" sales) key → ["지역", "합계"] =
          [key, (summaryAggregation (standardContext "지역별 합계" sales) key).label]) := by
  have hrun : (standard.propose "지역별 합계" sales.schema).plan.run sales =
      .ok ⟨[("group_summary_table", ⟨["지역", "합계"], [[.string "서울", .int 3]]⟩)],
        [⟨"group_summary_table", 0, "GROUP_BY", .nullGroupKeys 1⟩]⟩ := rfl
  obtain ⟨key, hkey, hfits, -⟩ := (proposal_fits_its_table hrun).2 _ (List.mem_singleton.2 rfl) rfl
  exact ⟨hrun, key, hkey, hfits⟩

def totals : Table := ⟨["합계", "Amount"], [[.string "a", .int 1], [.string "b", .int 2]]⟩

/-- Grouped by that column, the amounts are not shown at all. -/
theorem totals_by_total_unfit :
    ∃ o, (standard.propose "그룹" totals.schema).plan.run totals = .ok o ∧ totals.WellFormed ∧
      (∃ d ∈ o.trace, d.table ≠ "detail_table" ∧ ¬ ∃ n, d.note = .nullGroupKeys n) ∧
      ∃ e ∈ o.results, e.1 = "group_summary_table" ∧ e.2.columns.length ≠ 2 := by
  have hrun : (standard.propose "그룹" totals.schema).plan.run totals =
      .ok ⟨[("group_summary_table", ⟨["합계"], [[.string "b"], [.string "a"]]⟩)],
        [⟨"group_summary_table", 0, "GROUP_BY", .duplicateLabel "합계"⟩]⟩ := rfl
  refine ⟨_, hrun, ?_, ?_, ?_⟩
  · constructor <;> simp [totals]
  · exact ⟨_, List.mem_singleton.2 rfl, by simp, by simp⟩
  · exact ⟨_, List.mem_singleton.2 rfl, rfl, by decide⟩

end Planner
end Prompt
end TablePlanner
