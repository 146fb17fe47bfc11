import TablePlanner.Plan.Wire
import TablePlanner.Proofs.Json.Typed

namespace TablePlanner
open Json
open Document (ofValue ofMembers)

/-- Whether a limit fits into 64 bits and the value of a filter is exact. The bound on the nesting
leaves room for the plan around the value, and for a request around the plan. -/
def Operation.Exact : Operation → Prop
  | .filter _ value => value.Exact 100
  | .limit count => Number.Signed count
  | _ => True

def Plan.Exact (p : Plan) : Prop := ∀ r ∈ p.recipes, ∀ op ∈ r.operations, op.Exact

namespace Json.Value

theorem exact_strings (depth : Nat) (ss : List String) : (strings ss).Exact (depth + 1) := by
  refine .array fun v hv => ?_
  obtain ⟨s, -, rfl⟩ := List.mem_map.1 hv
  exact .string s

theorem exact_array_map {depth : Nat} {form : α → Value} {xs : List α}
    (h : ∀ x ∈ xs, (form x).Exact depth) : (array (xs.map form)).Exact (depth + 1) := by
  refine .array fun v hv => ?_
  obtain ⟨x, hx, rfl⟩ := List.mem_map.1 hv
  exact h x hx

end Json.Value

theorem Json.Number.inRange_of_signed {n : Int} (h : Signed n) : InRange n := by
  obtain ⟨hleast, hgreatest⟩ := h
  exact ⟨hleast, by simp only [greatestInt64, greatestNat64] at *; omega⟩

theorem Aggregation.exact_toJson (depth : Nat) (a : Aggregation) : a.toJson.Exact (depth + 1) := by
  refine .object (by simp) ?_
  simp [Value.Exact.string]

theorem Operation.exact_members {op : Operation} (h : op.Exact) :
    ∀ m ∈ op.members, m.2.Exact 100 := by
  cases op with
  | select fields => simp [members, Value.exact_strings]
  | filter field value =>
    have hvalue : value.Exact 100 := h
    simp [members, Value.Exact.string, hvalue]
  | groupBy keys aggregations =>
    have hkeys : (Value.strings keys).Exact 100 := Value.exact_strings 99 keys
    have haggregations : (Value.array (aggregations.map (·.toJson))).Exact 100 :=
      Value.exact_array_map fun a _ => a.exact_toJson 98
    simp [members, hkeys, haggregations]
  | orderBy field direction => simp [members, Value.Exact.string]
  | limit count =>
    have hcount : (Value.int count).Exact 100 := .integer (Number.inRange_of_signed h)
    simp [members, hcount]

theorem Operation.keys_nodup (op : Operation) :
    "type" ∉ op.members.map (·.1) ∧ (op.members.map (·.1)).Nodup := by
  cases op <;> simp [members]

theorem Operation.exact_toJson {op : Operation} (h : op.Exact) : op.toJson.Exact 101 := by
  refine .object (List.nodup_cons.2 op.keys_nodup) ?_
  simp only [List.forall_mem_cons]
  exact ⟨.string _, op.exact_members h⟩

theorem Recipe.exact_toJson {r : Recipe} (h : ∀ op ∈ r.operations, op.Exact) :
    r.toJson.Exact 103 := by
  refine .object (by simp) ?_
  have hoperations : (Value.array (r.operations.map (·.toJson))).Exact 102 :=
    Value.exact_array_map fun op hop => op.exact_toJson (h op hop)
  simp [Value.Exact.string, hoperations]

theorem Section.exact_toJson (depth : Nat) (s : Section) : s.toJson.Exact (depth + 2) := by
  refine .object (by simp) ?_
  simp [Value.Exact.string, Value.exact_strings]

theorem Plan.Exact.toJson {p : Plan} (h : p.Exact) : p.toJson.Exact 105 := by
  have hrecipes : (Value.array (p.recipes.map (·.toJson))).Exact 104 :=
    Value.exact_array_map fun r hr => r.exact_toJson (h r hr)
  have hsections : (Value.array (p.layout.map (·.toJson))).Exact 103 :=
    Value.exact_array_map fun s _ => s.exact_toJson 100
  have hlayout : (Value.object [("sections", .array (p.layout.map (·.toJson)))]).Exact 104 :=
    .object (by simp) (by simpa using hsections)
  refine .object (by simp) ?_
  simp [hrecipes, hlayout, Value.Exact.bool]

namespace Wire
open Document (map_of_ok toRecord_ofValue toTagged_ofValue toTexts_ofValue toList_ofValue
  toValue_ofValue readInOrder field optionalField)

theorem aggregate_ofValue (op : Aggregate) :
    Document.toHeldChoice Aggregate.ofName? (ofValue (.string op.name)) = .ok op := by
  cases op <;> rfl

theorem direction_ofValue (d : Direction) :
    Document.toHeldChoice Direction.ofName? (ofValue (.string d.name)) = .ok d := by
  cases d <;> rfl

theorem aggregation_ofValue (a : Aggregation) : aggregation (ofValue a.toJson) = .ok a := by
  refine toRecord_ofValue rfl (by simp) ?_
  simp only [List.map, readInOrder, field, optionalField, aggregate_ofValue]
  rfl

theorem select_ofValue (fields : List String) :
    select (ofValue (.object (Operation.select fields).members)) = .ok (.select fields) := by
  refine map_of_ok _ (toRecord_ofValue rfl (Operation.keys_nodup _).2 ?_)
  simp only [Operation.members, List.map, readInOrder, optionalField, toTexts_ofValue]
  rfl

theorem filter_ofValue (name : String) {value : Value} (h : value.Exact 100) :
    filter (ofValue (.object (Operation.filter name value).members)) =
      .ok (.filter name value) := by
  refine map_of_ok _ (toRecord_ofValue rfl (Operation.keys_nodup _).2 ?_) (a := (name, value))
  simp only [Operation.members, List.map, readInOrder, field, toValue_ofValue h]
  rfl

theorem groupBy_ofValue (keys : List String) (aggregations : List Aggregation) :
    groupBy (ofValue (.object (Operation.groupBy keys aggregations).members)) =
      .ok (.groupBy keys aggregations) := by
  have hlist : Document.toList aggregation (ofValue (.array (aggregations.map (·.toJson)))) =
      .ok aggregations := toList_ofValue fun a _ => aggregation_ofValue a
  refine map_of_ok _ (toRecord_ofValue rfl (Operation.keys_nodup _).2 ?_)
    (a := (keys, aggregations))
  simp only [Operation.members, List.map, readInOrder, field, optionalField, toTexts_ofValue, hlist]
  rfl

theorem orderBy_ofValue (name : String) (direction : Direction) :
    orderBy (ofValue (.object (Operation.orderBy name direction).members)) =
      .ok (.orderBy name direction) := by
  refine map_of_ok _ (toRecord_ofValue rfl (Operation.keys_nodup _).2 ?_) (a := (name, direction))
  simp only [Operation.members, List.map, readInOrder, field, optionalField, direction_ofValue]
  rfl

theorem limit_ofValue {count : Int} (h : Number.Signed count) :
    limit (ofValue (.object (Operation.limit count).members)) = .ok (.limit count) := by
  have hcount : Document.toInt64 (ofValue (.int count)) = .ok count :=
    Document.toInteger_ofValue (Number.inRange_of_signed h) h
  refine map_of_ok _ (toRecord_ofValue rfl (Operation.keys_nodup _).2 ?_)
  simp only [Operation.members, List.map, readInOrder, field, hcount]
  rfl

theorem operation_ofValue {op : Operation} (h : op.Exact) :
    operation (ofValue op.toJson) = .ok op := by
  have hvalues : ∀ m ∈ op.members, Document.toValue (ofValue m.2) = .ok m.2 :=
    fun m hm => toValue_ofValue (op.exact_members h m hm)
  have htag : "type" ∉ op.members.map (·.1) := op.keys_nodup.1
  cases op with
  | select fields => exact toTagged_ofValue rfl htag hvalues (select_ofValue fields)
  | filter name value => exact toTagged_ofValue rfl htag hvalues (filter_ofValue name h)
  | groupBy keys aggregations =>
    exact toTagged_ofValue rfl htag hvalues (groupBy_ofValue keys aggregations)
  | orderBy name direction =>
    exact toTagged_ofValue rfl htag hvalues (orderBy_ofValue name direction)
  | limit count => exact toTagged_ofValue rfl htag hvalues (limit_ofValue h)

theorem recipe_ofValue {r : Recipe} (h : ∀ op ∈ r.operations, op.Exact) :
    recipe (ofValue r.toJson) = .ok r := by
  have hlist : Document.toList operation (ofValue (.array (r.operations.map (·.toJson)))) =
      .ok r.operations := toList_ofValue fun op hop => operation_ofValue (h op hop)
  refine toRecord_ofValue rfl (by simp) ?_
  simp only [List.map, readInOrder, field, optionalField, hlist]
  rfl

theorem section_ofValue (s : Section) : layoutSection (ofValue s.toJson) = .ok s := by
  refine toRecord_ofValue rfl (by simp) ?_
  simp only [List.map, readInOrder, field, optionalField, toTexts_ofValue]
  rfl

theorem layout_ofValue (sections : List Section) :
    layout (ofValue (.object [("sections", .array (sections.map (·.toJson)))])) = .ok sections := by
  have hlist : Document.toList layoutSection (ofValue (.array (sections.map (·.toJson)))) =
      .ok sections := toList_ofValue fun s _ => section_ofValue s
  refine toRecord_ofValue rfl (by simp) ?_
  simp only [List.map, readInOrder, optionalField, hlist]
  rfl

theorem plan_ofValue {p : Plan} (h : p.Exact) : plan (ofValue p.toJson) = .ok p := by
  have hlist : Document.toList recipe (ofValue (.array (p.recipes.map (·.toJson)))) =
      .ok p.recipes := toList_ofValue fun r hr => recipe_ofValue (h r hr)
  refine toRecord_ofValue rfl (by simp) ?_
  simp only [List.map, readInOrder, field, optionalField, hlist, layout_ofValue]
  rfl

end Wire

namespace Plan

theorem readWhole_text {p : Plan} (h : p.Exact) : readWhole Wire.plan p.text = .ok p := by
  have hexact : p.toJson.Exact Document.maxDepth := h.toJson.mono (by decide)
  rw [readWhole, text, Document.ofText_render hexact]
  simp only [Wire.plan_ofValue h]
  rfl

/-- The text of a plan reads back as that plan, which is the only one with the text. Reading keeps
the fingerprint, the digest of the text. -/
theorem text_reads_back {p : Plan} (h : p.Exact) :
    readWhole Wire.plan p.text = .ok p ∧
      (∀ q : Plan, q.Exact → q.text = p.text → q = p) ∧
      (readWhole Wire.plan p.text).map fingerprint = .ok p.fingerprint ∧
      p.fingerprint = Sha256.ofText p.text := by
  have hread := readWhole_text h
  refine ⟨hread, fun q hq htext => ?_, by rw [hread]; rfl, rfl⟩
  have hother := readWhole_text hq
  rw [htext, hread] at hother
  cases hother
  rfl

def awkward : Plan where
  recipes :=
    [⟨"a\"b\\", "전체\n\x01",
      [.filter "" (.object [("k", .array [.null, .number (.integer (-5))]), ("\t", .string "é")]),
        .groupBy ["지역", ""] [⟨"", .count, "건수"⟩], .limit leastInt64]⟩]
  layout := [⟨"", ["none", "none"]⟩]
  isValidRequest := true

theorem awkward_reads_back : awkward.Exact ∧ readWhole Wire.plan awkward.text = .ok awkward ∧
    (∀ q : Plan, q.Exact → q.text = awkward.text → q = awkward) ∧
    (readWhole Wire.plan awkward.text).map fingerprint = .ok awkward.fingerprint ∧
    awkward.fingerprint = Sha256.ofText awkward.text := by
  have hitems : (Value.array [.null, .number (.integer (-5))]).Exact 99 :=
    .array (by simp [Value.Exact.null, Value.Exact.integer (n := -5) (by decide)])
  have hvalue : Value.Exact 100
      (.object [("k", .array [.null, .number (.integer (-5))]), ("\t", .string "é")]) :=
    .object (by decide) (by simp [hitems, Value.Exact.string])
  have hlimit : Number.Signed leastInt64 := by decide
  have hexact : awkward.Exact := by
    simp [Plan.Exact, awkward, Operation.Exact, hvalue, hlimit]
  exact ⟨hexact, text_reads_back hexact⟩

end Plan
end TablePlanner
