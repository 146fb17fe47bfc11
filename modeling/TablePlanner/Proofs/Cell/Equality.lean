import TablePlanner.Proofs.Cell.Place
import TablePlanner.Proofs.Cell.Text
import TablePlanner.Proofs.Json.Members

namespace TablePlanner

namespace Json.Value

/-- Whether a value is an array or an object. -/
def IsNested : Value → Prop
  | .array _ | .object _ => True
  | _ => False

theorem sameItems_self {vs : List Value} (h : ∀ v ∈ vs, v.same v = true) :
    sameItems vs vs = true := by
  induction vs with
  | nil => simp [sameItems]
  | cons v vs ih =>
    rw [List.forall_mem_cons] at h
    simp [sameItems, h.1, ih h.2]

theorem sameMembers_self {ms : List (String × Value)} (hkeys : (ms.map (·.1)).Nodup)
    (h : ∀ m ∈ ms, m.2.same m.2 = true) : sameMembers ms ms = true := by
  have hpart : ∀ part : List (String × Value), (∀ m ∈ part, m ∈ ms) →
      sameMembers part ms = true := by
    intro part
    induction part with
    | nil => exact fun _ => by simp [sameMembers]
    | cons m part ih =>
      intro hpart
      rw [List.forall_mem_cons] at hpart
      have hfound : ms.lookup m.1 = some m.2 := lookup_of_mem hkeys hpart.1
      simp [sameMembers, hfound, h m hpart.1, ih hpart.2]
  exact hpart ms fun _ hm => hm

theorem Valid.same_self {v : Value} (h : v.Valid) : v.same v = true := by
  induction h with
  | null => simp [same]
  | bool b => simp [same]
  | @number n _ =>
    cases n with
    | integer n => simp [same, Number.same]
    | float x => simp [same, Number.same, Binary64.order]
  | string s => simp [same]
  | array _ ih => simpa [same] using sameItems_self ih
  | object hkeys _ ih => simpa [same] using sameMembers_self hkeys ih

end Json.Value

namespace Cell
open Json
variable {a b : Value}

theorem order_eq_iff_equal (h : ¬ a.IsNested) : order a b = .eq ↔ equal a b = true := by
  cases a with
  | null => cases b <;> simp [order, equal, Value.same, rank]
  | bool x =>
    cases b with
    | bool y => simp [order, equal, Value.same]
    | _ => simp [order, equal, Value.same, rank]
  | number x =>
    cases b with
    | number y => simp [order, equal]
    | _ => simp [order, equal, Value.same, rank]
  | string s =>
    cases b with
    | string t => simp [order, equal, Value.same]
    | _ => simp [order, equal, Value.same, rank]
  | array vs => exact absurd trivial h
  | object ms => exact absurd trivial h

theorem order_eq_iff_eq (h : a.IsNested) (ha : a.Valid) (hb : b.Valid) :
    order a b = .eq ↔ a = b := by
  constructor
  · intro heq
    cases a with
    | array vs =>
      cases b with
      | array ws => exact render_inj ha hb (compare_eq_iff_eq.1 heq)
      | _ => simp [order, rank] at heq
    | object ms =>
      cases b with
      | object ns => exact render_inj ha hb (compare_eq_iff_eq.1 heq)
      | _ => simp [order, rank] at heq
    | _ => exact h.elim
  · rintro rfl
    exact order_self a

/-- Two cells have one place in the order when they are equal and, if they are arrays or objects,
one and the same. -/
theorem order_eq_iff (ha : a.Valid) (hb : b.Valid) :
    order a b = .eq ↔ equal a b = true ∧ (a.IsNested → a = b) := by
  by_cases h : a.IsNested
  · have hself : equal a a = true := by
      cases a with
      | array vs => exact ha.same_self
      | object ms => exact ha.same_self
      | _ => exact h.elim
    rw [order_eq_iff_eq h ha hb]
    constructor
    · rintro rfl
      exact ⟨hself, fun _ => rfl⟩
    · rintro ⟨-, heq⟩
      exact heq h
  · rw [order_eq_iff_equal h]
    constructor
    · intro hequal
      exact ⟨hequal, fun hnested => absurd hnested h⟩
    · exact And.left

end Cell
end TablePlanner
