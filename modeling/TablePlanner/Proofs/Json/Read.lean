import TablePlanner.Json.Shape
import TablePlanner.Proofs.Cell.Text
import TablePlanner.Proofs.Execution.Notes
import TablePlanner.Proofs.Execution.Run
import TablePlanner.Proofs.Json.Members

namespace TablePlanner

namespace Json

theorem Number.valid_of_ofLiteral? {literal : List Char} {n : Number}
    (h : ofLiteral? literal = some n) : n.Valid := by
  have hfloat : ∀ {negative digits exponent},
      (Binary64.ofDecimal? negative digits exponent).map Number.float = some n → n.Valid := by
    intro negative digits exponent h
    obtain ⟨x, hx, rfl⟩ := Option.map_eq_some_iff.1 h
    exact Binary64.representable_of_ofDecimal? hx
  have hinteger : ∀ {value magnitude negative},
      (if InRange value ∧ ¬(negative = true ∧ magnitude = 0) then some (integer value)
        else (Binary64.ofDecimal? negative magnitude 0).map float) = some n → n.Valid := by
    intro value magnitude negative h
    split at h
    · cases h
      trivial
    · exact hfloat h
  unfold ofLiteral? at h
  dsimp only at h
  generalize (if (literal.head? == some '-') = true then literal.drop 1 else literal) = body at h
  split at h
  · exact hinteger h
  · exact hfloat h
  · exact hfloat h

def ValidMembers (ms : List (String × Value)) : Prop :=
  (ms.map (·.1)).Nodup ∧ ∀ m ∈ ms, m.2.Valid

theorem ValidMembers.put {ms : List (String × Value)} (h : ValidMembers ms) (key : String)
    {v : Value} (hv : v.Valid) : ValidMembers (putMember key v ms) := by
  constructor
  · rw [keys_putMember]
    split
    · exact h.1
    · next hnew =>
      rw [← List.concat_eq_append]
      exact (List.nodup_concat _ _).2 ⟨hnew, h.1⟩
  · intro m hm
    rcases mem_putMember hm with rfl | hm
    · exact hv
    · exact h.2 m hm

namespace Document

mutual

theorem valid_of_toValue {d : Document} {v : Value} (h : toValue d = .ok v) : v.Valid := by
  cases d with
  | null =>
    cases h
    exact .null
  | bool b =>
    cases h
    exact .bool b
  | number literal =>
    unfold toValue at h
    split at h
    · next n hn =>
      cases h
      exact .number (Number.valid_of_ofLiteral? hn)
    · cases h
  | string content =>
    cases content with
    | none => cases h
    | some s =>
      cases h
      exact .string s
  | array items closed =>
    obtain ⟨values, hvalues, h⟩ := exists_of_bind_ok h
    cases closed with
    | true =>
      cases h
      exact .array (valid_of_toValues hvalues)
    | false => cases h
  | object members closed =>
    obtain ⟨ms, hms, h⟩ := exists_of_bind_ok h
    cases closed with
    | true =>
      cases h
      have hempty : ValidMembers [] := ⟨.nil, by simp⟩
      have hvalid := validMembers_of_toMembers hempty hms
      exact .object hvalid.1 hvalid.2
    | false => cases h
  | broken => cases h

theorem valid_of_toValues {ds : List Document} {vs : List Value} (h : toValues ds = .ok vs) :
    ∀ v ∈ vs, v.Valid := by
  cases ds with
  | nil =>
    cases h
    simp
  | cons d ds =>
    obtain ⟨v, hv, h⟩ := exists_of_bind_ok h
    obtain ⟨rest, hrest, h⟩ := exists_of_bind_ok h
    cases h
    exact List.forall_mem_cons.2 ⟨valid_of_toValue hv, valid_of_toValues hrest⟩

theorem validMembers_of_toMembers {held ms : List (String × Value)}
    {ds : List (Option String × Document)} (hheld : ValidMembers held)
    (h : toMembers held ds = .ok ms) : ValidMembers ms := by
  cases ds with
  | nil =>
    cases h
    exact hheld
  | cons m ds =>
    obtain ⟨key, d⟩ := m
    cases key with
    | none => cases h
    | some key =>
      obtain ⟨v, hv, h⟩ := exists_of_bind_ok h
      exact validMembers_of_toMembers (hheld.put key (valid_of_toValue hv)) h

end

end Document
end Json

namespace Table
open Json

theorem valid_of_recordsFrom {index : Nat} {values : List Value} {records : List Record}
    (h : recordsFrom index values = .ok records) (hvalues : ∀ v ∈ values, v.Valid) :
    ∀ record ∈ records, ∀ m ∈ record, m.2.Valid := by
  induction values generalizing index records with
  | nil =>
    cases h
    simp
  | cons v values ih =>
    rw [List.forall_mem_cons] at hvalues
    obtain ⟨hv, hvalues⟩ := hvalues
    cases hv with
    | object _ hmembers =>
      obtain ⟨rest, hrest, h⟩ := exists_of_bind_ok h
      cases h
      exact List.forall_mem_cons.2 ⟨hmembers, ih hrest hvalues⟩
    | _ => cases h

theorem valid_of_ofRecords {values : List Value} {t : Table} (h : ofRecords values = .ok t)
    (hvalues : ∀ v ∈ values, v.Valid) : ∀ row ∈ t.rows, ∀ v ∈ row, v.Valid := by
  obtain ⟨records, hrecords, h⟩ := exists_of_bind_ok h
  cases h
  intro row hrow v hv
  obtain ⟨record, hrecord, rfl⟩ := List.mem_map.1 hrow
  obtain ⟨name, -, rfl⟩ := List.mem_map.1 hv
  cases hfound : record.lookup name with
  | none => exact .null
  | some v =>
    obtain ⟨before, after, hsplit, -⟩ := List.lookup_eq_some_iff.1 hfound
    have hmem : (name, v) ∈ record := by simp [hsplit]
    exact valid_of_recordsFrom hrecords hvalues record hrecord (name, v) hmem

theorem valid_columnOf {t : Table} (h : ∀ row ∈ t.rows, ∀ v ∈ row, v.Valid) (name : String) :
    ∀ v ∈ t.columnOf name, v.Valid := by
  intro v hv
  obtain ⟨row, hrow, rfl⟩ := List.mem_map.1 hv
  unfold cellOf cell
  rw [List.getD_eq_getElem?_getD]
  cases hfound : row[t.columns.idxOf name]? with
  | none => exact .null
  | some v => exact h row hrow v (List.mem_of_getElem? hfound)

end Table
end TablePlanner
