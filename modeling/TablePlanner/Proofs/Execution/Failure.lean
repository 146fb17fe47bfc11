import TablePlanner.Proofs.Execution.Accepted
import TablePlanner.Proofs.Execution.Groups

/-! A plan fails exactly if a sum or a mean refuses some cell, and it fails with the first of them:
by recipes, by operations as far as they come, and in a grouping by groups, then aggregations, then
rows. -/
namespace TablePlanner
open Json

/-- Whether something fails exactly if there are offences, and then with the first of them. -/
def FailsAtFirst (x : Except ε α) (offences : List ε) : Prop :=
  ∀ e, x = .error e ↔ offences.head? = some e

namespace FailsAtFirst
variable {x : Except ε α} {offences more : List ε} {a : α} {e : ε}

theorem ok (a : α) : FailsAtFirst (.ok a : Except ε α) [] :=
  fun _ => iff_of_false (fun h => by cases h) (fun h => by cases h)

theorem error (e : ε) (more : List ε) : FailsAtFirst (.error e : Except ε α) (e :: more) :=
  fun _ => ⟨fun h => congrArg some (Except.error.inj h), fun h => congrArg _ (Option.some.inj h)⟩

theorem eq_nil (h : FailsAtFirst x offences) (hx : x = .ok a) : offences = [] := by
  cases offences with
  | nil => rfl
  | cons e offences =>
    have herror := (h e).2 rfl
    rw [hx] at herror
    cases herror

theorem eq_cons (h : FailsAtFirst x offences) (hx : x = .error e) :
    ∃ more, offences = e :: more :=
  List.head?_eq_some_iff.1 ((h e).1 hx)

theorem exists_iff (h : FailsAtFirst x offences) :
    (∃ e, x = .error e) ↔ ∃ e, e ∈ offences := by
  simp only [h _]
  cases offences <;> simp

theorem exists_ok_iff (h : FailsAtFirst x offences) :
    (∃ a, x = .ok a) ↔ ¬ ∃ e, e ∈ offences := by
  rw [← h.exists_iff]
  cases x <;> simp

theorem bind {f : α → Except ε β} (hx : FailsAtFirst x offences)
    (hf : ∀ a, x = .ok a → FailsAtFirst (f a) more) :
    FailsAtFirst (x >>= f) (offences ++ more) := by
  cases hresult : x with
  | error e =>
    obtain ⟨rest, rfl⟩ := hx.eq_cons hresult
    exact error e (rest ++ more)
  | ok a =>
    rw [hx.eq_nil hresult]
    exact hf a hresult

theorem map (h : FailsAtFirst x offences) (f : α → β) : FailsAtFirst (f <$> x) offences := by
  have hmap := h.bind (f := fun a => .ok (f a)) fun a _ => ok (f a)
  rw [List.append_nil] at hmap
  cases x <;> exact hmap

theorem mapM {f : α → Except ε β} {g : α → List ε} {xs : List α}
    (h : ∀ x ∈ xs, FailsAtFirst (f x) (g x)) : FailsAtFirst (xs.mapM f) (xs.flatMap g) := by
  induction xs with
  | nil => exact ok []
  | cons x xs ih =>
    rw [List.forall_mem_cons] at h
    rw [List.mapM_cons, List.flatMap_cons]
    exact h.1.bind fun y _ => (ih h.2).map (y :: ·)

end FailsAtFirst

namespace Aggregate

def refuses : Aggregate → Value → Bool
  | sum, .null | sum, .number _ | mean, .null | mean, .number _ => false
  | sum, _ | mean, _ => true
  | count, _ | min, _ | max, _ => false

variable {op : Aggregate}

theorem refuses_iff {v : Value} : op.refuses v = true ↔
    (op = .sum ∨ op = .mean) ∧ v.isNull = false ∧ ∀ n, v ≠ .number n := by
  cases op <;> cases v <;> simp [refuses, Value.isNull]

theorem filter_refuses_eq_nil (hop : ¬ (op = .sum ∨ op = .mean)) (cells : List Value) :
    cells.filter op.refuses = [] := by
  rw [List.filter_eq_nil_iff]
  exact fun v _ hv => hop (refuses_iff.1 hv).1

theorem foldlM_addCell_failsAtFirst (hop : op = .sum ∨ op = .mean) (cells : List Value)
    (t : Totals) : FailsAtFirst ((cells.filter (!·.isNull)).foldlM Totals.addCell t)
      (cells.filter op.refuses) := by
  induction cells generalizing t with
  | nil => exact .ok t
  | cons v cells ih =>
    cases v with
    | null => rcases hop with rfl | rfl <;> exact ih t
    | number n => rcases hop with rfl | rfl <;> exact ih (t.add n)
    | _ => rcases hop with rfl | rfl <;> exact .error _ _

theorem ofCells_failsAtFirst (op : Aggregate) (cells : List Value) :
    FailsAtFirst (op.ofCells cells) (cells.filter op.refuses) := by
  cases op with
  | sum => exact (foldlM_addCell_failsAtFirst (.inl rfl) cells .zero).map Totals.sum
  | mean => exact (foldlM_addCell_failsAtFirst (.inr rfl) cells .zero).map Totals.mean
  | _ =>
    rw [filter_refuses_eq_nil (by decide)]
    exact .ok _

end Aggregate

namespace Aggregation

def offences (a : Aggregation) (t : Table) (rows : List Row) : List NonNumeric :=
  ((rows.map (t.cellOf · a.field)).filter a.op.refuses).map (⟨a.field, a.op, ·⟩)

theorem mem_offences_iff {a : Aggregation} {t : Table} {rows : List Row} {cell : NonNumeric} :
    cell ∈ a.offences t rows ↔ ∃ row ∈ rows,
      a.op.refuses (t.cellOf row a.field) = true ∧
        ⟨a.field, a.op, t.cellOf row a.field⟩ = cell := by
  simp only [offences, List.mem_map, List.mem_filter]
  constructor
  · rintro ⟨v, ⟨⟨row, hrow, rfl⟩, hrefused⟩, hcell⟩
    exact ⟨row, hrow, hrefused, hcell⟩
  · rintro ⟨row, hrow, hrefused, hcell⟩
    exact ⟨_, ⟨⟨row, hrow, rfl⟩, hrefused⟩, hcell⟩

theorem valueOn_failsAtFirst (a : Aggregation) (t : Table) (rows : List Row) :
    FailsAtFirst (a.valueOn t rows) (a.offences t rows) := by
  have hcells := a.op.ofCells_failsAtFirst (rows.map (t.cellOf · a.field))
  unfold valueOn offences
  split
  · next hcount =>
    rw [hcount, Aggregate.filter_refuses_eq_nil (by decide)]
    exact .ok _
  · cases hresult : a.op.ofCells (rows.map (t.cellOf · a.field)) with
    | error v =>
      obtain ⟨rest, hrest⟩ := hcells.eq_cons hresult
      rw [hrest]
      exact .error _ _
    | ok v =>
      rw [hcells.eq_nil hresult]
      exact .ok v

end Aggregation

namespace Table
open Grouping (acceptedOn rowOn)

/-- The cells that the sums and means of a grouping refuse: by groups, then by accepted
aggregations, then by rows. -/
def offences (t : Table) (keys : List String) (aggregations : List Aggregation) :
    List NonNumeric :=
  if t.present keys = [] then []
  else (Grouping.ofRows (t.knownColumns keys) t.rows).flatMap fun g =>
    (acceptedOn t keys aggregations).flatMap fun a => a.offences t g.rows

/-- Whether a grouping by some known key has an accepted sum or mean over a cell that is neither
null nor a number, in a row that has no null key. -/
def HasOffence (t : Table) (keys : List String) (aggregations : List Aggregation) : Prop :=
  (∃ key ∈ keys, key ∈ t.columns) ∧
    ∃ a ∈ acceptedOn t keys aggregations, (a.op = .sum ∨ a.op = .mean) ∧
      ∃ row ∈ t.rows, t.hasNullAmong keys row = false ∧
        (t.cellOf row a.field).isNull = false ∧ ∀ n, t.cellOf row a.field ≠ .number n

section
variable {t : Table} {keys : List String} {aggregations : List Aggregation}

theorem rowOn_failsAtFirst (t : Table) (keys : List String) (aggregations : List Aggregation)
    (g : Grouping.Group) : FailsAtFirst (rowOn t keys aggregations g)
      ((acceptedOn t keys aggregations).flatMap fun a => a.offences t g.rows) := by
  unfold rowOn
  exact (FailsAtFirst.mapM fun a _ => a.valueOn_failsAtFirst t g.rows).map (g.key ++ ·)

theorem groupBy_failsAtFirst (t : Table) (keys : List String) (aggregations : List Aggregation) :
    FailsAtFirst (t.groupBy keys aggregations) (t.offences keys aggregations) := by
  unfold offences
  split
  · next habsent =>
    rw [groupBy_of_absent habsent]
    exact .ok _
  · next hpresent =>
    have hrows := FailsAtFirst.mapM
      fun g (_ : g ∈ Grouping.ofRows (t.knownColumns keys) t.rows) =>
        rowOn_failsAtFirst t keys aggregations g
    rw [groupBy_of_present hpresent]
    cases hresult :
        (Grouping.ofRows (t.knownColumns keys) t.rows).mapM (rowOn t keys aggregations) with
    | error cell =>
      obtain ⟨rest, hrest⟩ := hrows.eq_cons hresult
      rw [hrest]
      exact .error _ _
    | ok rows =>
      rw [hrows.eq_nil hresult]
      exact .ok _

example : offences ⟨["shop", "paid"], [[.string "b", .string "x"], [.null, .string "y"],
      [.string "a", .int 1], [.string "a", .string "z"]]⟩ ["shop"]
      [⟨"paid", .count, "visits"⟩, ⟨"paid", .sum, "shop"⟩, ⟨"paid", .sum, "total"⟩] =
    [⟨"paid", .sum, .string "z"⟩, ⟨"paid", .sum, .string "x"⟩] := by rfl

theorem exists_group_iff {row : Row} :
    (∃ g ∈ Grouping.ofRows (t.knownColumns keys) t.rows, row ∈ g.rows) ↔
      row ∈ t.rows ∧ t.hasNullAmong keys row = false := by
  rw [← List.mem_flatMap, (Grouping.perm_ofRows (t.knownColumns keys) t.rows).mem_iff,
    List.mem_filter, hasNullKey_eq, Bool.not_eq_true']

theorem exists_offence_iff :
    (∃ cell, cell ∈ t.offences keys aggregations) ↔ t.HasOffence keys aggregations := by
  unfold offences HasOffence
  by_cases habsent : t.present keys = []
  · rw [if_pos habsent]
    refine iff_of_false (fun ⟨_, h⟩ => by cases h) ?_
    exact fun h => present_ne_nil_iff.2 h.1 habsent
  · have hsome := present_ne_nil_iff.1 habsent
    simp only [if_neg habsent, List.mem_flatMap, Aggregation.mem_offences_iff]
    constructor
    · rintro ⟨cell, g, hg, a, ha, row, hrow, hrefused, -⟩
      obtain ⟨hop, hcell⟩ := Aggregate.refuses_iff.1 hrefused
      obtain ⟨hmem, hnull⟩ := exists_group_iff.1 ⟨g, hg, hrow⟩
      exact ⟨hsome, a, ha, hop, row, hmem, hnull, hcell⟩
    · rintro ⟨-, a, ha, hop, row, hmem, hnull, hcell⟩
      obtain ⟨g, hg, hrow⟩ := exists_group_iff.2 ⟨hmem, hnull⟩
      exact ⟨_, g, hg, a, ha, row, hrow, Aggregate.refuses_iff.2 ⟨hop, hcell⟩, rfl⟩

theorem groupBy_ok_iff :
    (∃ result, t.groupBy keys aggregations = .ok result) ↔ ¬ t.HasOffence keys aggregations := by
  rw [(t.groupBy_failsAtFirst keys aggregations).exists_ok_iff, exists_offence_iff]

theorem HasOffence.mono {rows : List Row} (h : HasOffence ⟨t.columns, rows⟩ keys aggregations)
    (hsub : ∀ row ∈ rows, row ∈ t.rows) : t.HasOffence keys aggregations := by
  obtain ⟨hsome, a, ha, hop, row, hrow, hrefused⟩ := h
  rw [acceptedOn, Grouping.acceptBehind_of_rows] at ha
  exact ⟨hsome, a, ha, hop, row, hsub row hrow, hrefused⟩

end
end Table

/-- The operations that running some of them comes to, with the tables they work on. -/
def reached (t : Table) : List Operation → List (Operation × Table)
  | [] => []
  | op :: ops =>
    (op, t) :: match op.apply t with
      | .ok (u, _) => reached u ops
      | .error _ => []

def Operation.offences (t : Table) : Operation → List NonNumeric
  | groupBy keys aggregations => t.offences keys aggregations
  | select _ | filter .. | orderBy .. | limit _ => []

theorem Operation.apply_failsAtFirst (op : Operation) (t : Table) :
    FailsAtFirst (op.apply t) (op.offences t) := by
  cases op with
  | groupBy keys aggregations => exact t.groupBy_failsAtFirst keys aggregations
  | _ => exact .ok _

def Recipe.offences (r : Recipe) (source : Table) : List ExecutionError :=
  (reached source r.operations).flatMap fun (op, t) => (op.offences t).map (.nonNumeric r.id)

/-- The failures that a plan has cause for, in the order of its recipes. -/
def Plan.offences (p : Plan) (source : Table) : List ExecutionError :=
  p.recipes.flatMap (·.offences source)

theorem runFrom_failsAtFirst (id : String) (index : Nat) (t : Table) (ops : List Operation) :
    FailsAtFirst (runFrom id index t ops)
      ((reached t ops).flatMap fun (op, t) => (op.offences t).map (.nonNumeric id)) := by
  induction ops generalizing index t with
  | nil => exact .ok _
  | cons op ops ih =>
    have happly := op.apply_failsAtFirst t
    unfold runFrom reached
    rw [List.flatMap_cons]
    cases hresult : op.apply t with
    | error cell =>
      obtain ⟨rest, hrest⟩ := happly.eq_cons hresult
      simp only [hrest]
      exact .error _ _
    | ok result =>
      simp only [happly.eq_nil hresult]
      exact (ih (index + 1) result.1).map _

theorem runRecipes_failsAtFirst (source : Table) (recipes : List Recipe) :
    FailsAtFirst (runRecipes source recipes) (recipes.flatMap (·.offences source)) := by
  induction recipes with
  | nil => exact .ok _
  | cons r recipes ih =>
    unfold runRecipes
    rw [List.flatMap_cons]
    exact (runFrom_failsAtFirst r.id 0 source r.operations).bind fun result _ => ih.map _

theorem Plan.run_fails_at_first_offence (p : Plan) (source : Table) :
    ((∃ e, p.run source = .error e) ↔
      ∃ r ∈ p.recipes, ∃ keys aggregations t,
        (.groupBy keys aggregations, t) ∈ reached source r.operations ∧
          t.HasOffence keys aggregations) ∧
    ∀ e, p.run source = .error e ↔ (p.offences source).head? = some e := by
  have hruns : FailsAtFirst (p.run source) (p.offences source) :=
    runRecipes_failsAtFirst source p.recipes
  refine ⟨?_, hruns⟩
  rw [hruns.exists_iff]
  simp only [offences, Recipe.offences, List.mem_flatMap, List.mem_map]
  constructor
  · rintro ⟨e, r, hr, ⟨op, t⟩, hreached, cell, hcell, -⟩
    cases op with
    | groupBy keys aggregations =>
      exact ⟨r, hr, keys, aggregations, t, hreached, Table.exists_offence_iff.1 ⟨cell, hcell⟩⟩
    | _ => cases hcell
  · rintro ⟨r, hr, keys, aggregations, t, hreached, hoffence⟩
    obtain ⟨cell, hcell⟩ := Table.exists_offence_iff.2 hoffence
    exact ⟨_, r, hr, ⟨_, t⟩, hreached, cell, hcell, rfl⟩

end TablePlanner
