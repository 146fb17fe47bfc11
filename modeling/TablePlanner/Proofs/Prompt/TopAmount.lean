import TablePlanner.Proofs.Execution.Ordering
import TablePlanner.Proofs.Execution.Provenance
import TablePlanner.Proofs.Prompt.Results
import TablePlanner.Proofs.Table.Records

namespace TablePlanner

namespace Table
variable {t : Table}

theorem present_columns (h : t.columns.Nodup) : t.present t.columns = t.columns := by
  have hall : t.columns.filter (· ∈ t.columns) = t.columns := by simp
  rw [present, hall]
  exact addColumns_of_nodup (by simpa using h)

theorem pickCells_columns (h : t.columns.Nodup) {row : Row}
    (hrow : row.length = t.columns.length) :
    pickCells (t.knownColumns t.columns) row = row := by
  have hpicked : t.pickColumns (t.knownColumns t.columns) = t.columns := by
    rw [pickColumns_knownColumns, present_columns h]
  have hlength : (t.knownColumns t.columns).length = t.columns.length := by
    rw [← congrArg List.length hpicked, pickColumns, List.length_map]
  apply List.ext_getElem
  · rw [pickCells, List.length_map, hlength, hrow]
  · intro i hi hirow
    have hicolumn : i < t.columns.length := hrow ▸ hirow
    have hname : t.columns[i] ∈ t.pickColumns (t.knownColumns t.columns) := by
      rw [hpicked]
      exact List.getElem_mem hicolumn
    have hcell := cellOf_pickCells hname row
    rw [hpicked, cellOf, h.idxOf_getElem i hicolumn, cell, cell] at hcell
    rwa [List.getElem_eq_getD .null, List.getElem_eq_getD .null]

theorem WellFormed.select_columns (h : t.WellFormed) : (t.select t.columns).1 = t := by
  have hrows : t.rows.map (pickCells (t.knownColumns t.columns)) = t.rows := by
    conv_rhs => rw [← List.map_id t.rows]
    exact List.map_congr_left fun row hrow => pickCells_columns h.1 (h.2 row hrow)
  unfold Table.select
  split
  · rfl
  · dsimp only
    split
    · rfl
    · rw [pickColumns_knownColumns, present_columns h.1, hrows]

end Table

namespace Prompt
open Vocabulary
variable {t : Table} {prompt amount : String}

def topOperations (ctx : Context) (amount : String) : List Operation :=
  [selectAll ctx, .orderBy amount .descending] ++
    (requestedCount? ctx.text ctx.candidates).toList.map .limit

theorem topAmountRecipe?_of_mentions {ctx : Context}
    (hamount : ctx.schema.findColumn? amountColumn = some amount)
    (htop : mentionsAny ctx.text topPhrases = true) :
    ∃ title, topAmountRecipe? ctx = some ⟨"top_amount_table", title, topOperations ctx amount⟩ := by
  unfold topAmountRecipe? topOperations
  rw [hamount, Option.bind_eq_bind, Option.bind_some, guard, if_pos htop]
  cases requestedCount? ctx.text ctx.candidates with
  | none => exact ⟨_, rfl⟩
  | some n => exact ⟨_, rfl⟩

/-- The number of rows that a prompt for the largest amounts gets from a table. -/
def topCount (prompt : String) (t : Table) : Nat :=
  match requestedCount? (Text.lower prompt.toList) standardCandidates with
  | some n => n.toNat
  | none => t.height

theorem top_of_topOperations (h : t.WellFormed)
    (hamount : t.schema.findColumn? amountColumn = some amount)
    (hcells : Cell.Unmixed (t.columnOf amount)) (id : String) :
    ∃ result trace, runFrom id 0 t (topOperations (Planner.standardContext prompt t) amount) =
        .ok (result, trace) ∧ t.Top amount (topCount prompt t) result := by
  have hselect : (selectAll (Planner.standardContext prompt t)).apply t =
      .ok (t, (t.select t.columns).2) := by
    have happly : t.select t.columns = (t, (t.select t.columns).2) :=
      Prod.ext h.select_columns rfl
    exact congrArg Except.ok happly
  have horder : (Operation.orderBy amount .descending).apply t =
      .ok ((t.orderBy amount .descending).1, (t.orderBy amount .descending).2) := rfl
  have htop := Table.top_of_orderBy (mem_of_findColumn? hamount) hcells
  unfold topOperations topCount
  rw [List.cons_append, List.singleton_append]
  cases hcount : requestedCount? (Text.lower prompt.toList) standardCandidates with
  | none =>
    have hcount' : requestedCount? (Planner.standardContext prompt t).text
        (Planner.standardContext prompt t).candidates = none := hcount
    rw [hcount']
    have hall : (t.orderBy amount .descending).1.head t.height = (t.orderBy amount .descending).1 := by
      unfold Table.head
      rw [List.take_of_length_le (Operation.height_le_of_apply horder)]
    refine ⟨_, _, runFrom_cons hselect (runFrom_cons horder rfl), ?_⟩
    rw [← hall]
    exact htop t.height
  | some n =>
    have hcount' : requestedCount? (Planner.standardContext prompt t).text
        (Planner.standardContext prompt t).candidates = some n := hcount
    rw [hcount']
    have hpositive : ¬ n ≤ 0 := by
      have hall : ∀ m ∈ standardCandidates, ¬ m ≤ 0 := by decide
      exact hall n (List.mem_of_find?_eq_some hcount)
    have hlimit : (Operation.limit n).apply (t.orderBy amount .descending).1 =
        .ok ((t.orderBy amount .descending).1.head n.toNat, []) :=
      congrArg Except.ok (if_neg hpositive)
    exact ⟨_, _, runFrom_cons hselect (runFrom_cons horder (runFrom_cons hlimit rfl)),
      htop n.toNat⟩

theorem FirstMatch.exists_first {ctx : Context} {chain : List Detector} {taken : List Taken}
    {d : Detector} {r : Recipe} (h : FirstMatch ctx chain taken) (hd : chain[0]? = some d)
    (hr : d.offer? ctx = some r) : ∃ e ∈ taken, e.place = 0 ∧ e.recipe = r := by
  have hfirst : ∃ e ∈ taken, e.place = 0 := by
    by_contra hnone
    have hbehind : ∀ e ∈ taken, 0 < e.place := fun e he =>
      Nat.pos_of_ne_zero fun hzero => hnone ⟨e, he, hzero⟩
    have hno := h.earliest 0 d hd hbehind
    rw [hr] at hno
    cases hno
  obtain ⟨e, he, hplace⟩ := hfirst
  obtain ⟨howner, hown⟩ := h.offered e he
  rw [hplace, hd] at howner
  rw [← Option.some.inj howner, hr] at hown
  exact ⟨e, he, hplace, (Option.some.inj hown).symm⟩

namespace Planner

theorem mem_of_topAmountRecipe? {r : Recipe}
    (hr : topAmountRecipe? (standardContext prompt t) = some r) :
    r ∈ (standard.propose prompt t.schema).plan.recipes ∧
      ∀ s ∈ (standard.propose prompt t.schema).plan.recipes, ∀ op ∈ s.operations,
        op.kind ≠ "GROUP_BY" := by
  obtain ⟨taken, hmatch, hholds⟩ := standard.exists_holds_propose prompt t.schema
  have hfirst : Detector.standard[0]? = some .topAmount := rfl
  have hid : r.id ≠ "" := by
    rw [(topAmountRecipe?_eq_some hr).1]
    decide
  have hoffer : Detector.topAmount.offer? (standardContext prompt t) = some r :=
    Detector.offer?_eq_some_iff.2 ⟨hr, hid⟩
  obtain ⟨first, hmem, hplace, hrecipe⟩ := hmatch.exists_first hfirst hoffer
  have hrecipes : (standard.propose prompt t.schema).plan.recipes = taken.map (·.recipe) := by
    have hdefault : orDefault taken = taken := by
      cases taken with
      | nil => cases hmem
      | cons e taken => rfl
    rw [← hdefault]
    exact hholds.recipes
  rw [hrecipes]
  constructor
  · rw [← hrecipe]
    exact List.mem_map_of_mem hmem
  · intro s hs
    obtain ⟨e, he, rfl⟩ := List.mem_map.1 hs
    obtain ⟨hd, hown⟩ := hmatch.offered e he
    rcases kinds_or_groupSummary (List.mem_of_getElem? hd)
      (Detector.offer?_eq_some_iff.1 hown).1 with hkinds | hsummary
    · exact hkinds
    · -- A group summary is conditional, so it can only be the first of the taken ones.
      rcases Nat.eq_zero_or_pos e.place with hzero | hpos
      · rw [hzero, hsummary] at hd
        have hname : "top_amount" = "group_summary" :=
          congrArg Detector.name (Option.some.inj (hfirst.symm.trans hd))
        exact absurd hname (by decide)
      · have hun := hmatch.later first hmem e he (hplace ▸ hpos)
        rw [hsummary] at hun
        cases hun

/-- Where a table has amounts, a prompt with a top phrase gets the whole rows with the greatest of
them, greatest first: as many as it asks for, or all. Rows with equal amounts keep their order. -/
theorem largest_amounts (h : t.WellFormed)
    (hamount : t.schema.findColumn? amountColumn = some amount)
    (hcells : Cell.Unmixed (t.columnOf amount))
    (htop : mentionsAny (Text.lower prompt.toList) topPhrases = true) :
    ∃ o result, (standard.propose prompt t.schema).plan.run t = .ok o ∧
      o.get? "top_amount_table" = some result ∧ t.Top amount (topCount prompt t) result := by
  have htext : mentionsAny (standardContext prompt t).text topPhrases = true := htop
  obtain ⟨title, hr⟩ := topAmountRecipe?_of_mentions hamount htext
  obtain ⟨hmem, hkinds⟩ := mem_of_topAmountRecipe? hr
  obtain ⟨result, trace, hrun, hresult⟩ := top_of_topOperations h hamount hcells "top_amount_table"
  obtain ⟨o, ho, hfound⟩ := exists_run_of_propose fun s hs _ =>
    exists_runFrom s.id 0 t (hkinds s hs)
  exact ⟨o, result, ho, hfound _ hmem result trace hrun, hresult⟩

def purchases : Table where
  columns := ["Merchant", "금액", "지역"]
  rows :=
    [[.string "a", .int 7, .string "Seoul"], [.string "b", .null, .string "Seoul"],
     [.string "c", .int 9, .null], [.string "d", .int 7, .string "Busan"],
     [.string "e", .int 9, .string "Seoul"], [.string "f", .int 8, .string "Busan"]]

theorem purchases_largest_amounts :
    purchases.WellFormed ∧ ∃ o result,
      (standard.propose "서울 지역별 상위 5건" purchases.schema).plan.run purchases = .ok o ∧
      o.get? "top_amount_table" = some result ∧
      result.rows.map (purchases.cellOf · "Merchant") =
        [.string "c", .string "e", .string "f", .string "a", .string "d"] ∧
      purchases.Top "금액" 5 result := by
  have hformed : purchases.WellFormed := by
    constructor <;> simp [purchases]
  have hcells : Cell.Unmixed (purchases.columnOf "금액") := by
    intro x n hx
    simp [Table.columnOf, Table.cellOf, Table.cell, purchases, Json.Value.int] at hx
  have hphrase : mentionsAny (Text.lower "서울 지역별 상위 5건".toList) topPhrases = true := rfl
  obtain ⟨o, result, hrun, hfound, htop⟩ := largest_amounts hformed rfl hcells hphrase
  refine ⟨hformed, o, result, hrun, hfound, ?_, htop⟩
  cases hrun
  cases hfound
  rfl

end Planner
end Prompt
end TablePlanner
