import TablePlanner.Proofs.Json.Members
import TablePlanner.Proofs.Json.NumberText
import TablePlanner.Proofs.Numeric.Integers
import TablePlanner.Proofs.Preview.Columns

namespace TablePlanner
open Json

namespace Preview
variable {n : Int}

theorem leastInt64_le_roundAway (h : leastInt64 ≤ n) :
    leastInt64 ≤ (Binary64.ofInt n).roundAway := by
  have hleast : (Binary64.ofInt leastInt64).roundAway = leastInt64 :=
    Binary64.roundAway_ofInt_eq_iff.2 ⟨1, 63, by decide, rfl⟩
  rw [← hleast]
  exact Binary64.roundAway_ofInt_le h

/-- An amount that is an integer is shown as another one if it does not fit into 64 signed bits or
if the format does not hold it, the greatest one apart. -/
theorem wholeAmount_integer_eq_iff : wholeAmount (.integer n) = n ↔
    Number.Signed n ∧ (Binary64.Held n.natAbs ∨ n = greatestInt64) := by
  rw [← Binary64.roundAway_ofInt_eq_iff]
  constructor
  · intro h
    have hsigned : Number.Signed n := by
      rw [← h, wholeAmount]
      exact ⟨le_max_left _ _, max_le (by decide) (min_le_left _ _)⟩
    have hle := leastInt64_le_roundAway hsigned.1
    rw [wholeAmount, Number.binary64, max_eq_right (le_min (by decide) hle)] at h
    refine ⟨hsigned, ?_⟩
    rcases le_total greatestInt64 (Binary64.ofInt n).roundAway with hgreat | hgreat
    · rw [min_eq_left hgreat] at h
      exact .inr h.symm
    · rw [min_eq_right hgreat] at h
      exact .inl h
  · rintro ⟨hsigned, hheld | rfl⟩
    · rw [wholeAmount, Number.binary64, hheld, min_eq_right hsigned.2, max_eq_right hsigned.1]
    · decide +kernel

end Preview

namespace Table
open Preview
variable {t : Table} {rules : Rules} {name : String} {row : Row} {i : Nat}

theorem WellFormed.getElem?_preview (h : t.WellFormed)
    (hrow : (t.rows.take rules.rowLimit)[i]? = some row) :
    (t.preview rules)[i]? = some (.object (t.columns.map fun name =>
      (name, cellRule rules name ((t.head rules.rowLimit).columnOf name) (t.cellOf row name)))) := by
  rw [h.preview_eq, List.getElem?_map, hrow]
  rfl

/-- A column of amounts shows every integer as a text, whatever the integer is. Without its commas
this is the decimal text of the integer exactly if the integer is one of 64 signed bits with at most
53 significant ones or the greatest of 64 bits. -/
theorem integer_amounts_shown (h : t.WellFormed) (hname : name ∈ t.columns)
    (hamounts : ShowsAmounts rules.currencyTokens name ((t.head rules.rowLimit).columnOf name))
    (hrow : (t.rows.take rules.rowLimit)[i]? = some row) {n : Int}
    (hcell : t.cellOf row name = .int n) :
    ∃ members text, (t.preview rules)[i]? = some (.object members) ∧
      members.lookup name = some (.string text) ∧
      text.toList.filter (· ≠ ',') = Number.intText (wholeAmount (.integer n)) ∧
      (text.toList.filter (· ≠ ',') = Number.intText n ↔
        Number.Signed n ∧ (Binary64.Held n.natAbs ∨ n = greatestInt64)) := by
  have hmem : .int n ∈ (t.head rules.rowLimit).columnOf name :=
    hcell ▸ cellOf_mem (t := t.head rules.rowLimit) (List.mem_of_getElem? hrow) name
  have hdates : ¬ ShowsDates rules.dateRatio ((t.head rules.rowLimit).columnOf name) := by
    intro hdates
    rcases hdates.texts _ hmem with hnull | ⟨s, hs⟩
    · cases hnull
    · cases hs
  have hshown := (Shown.amount hdates hamounts (.integer n)).cellRule_eq
  refine ⟨_, thousands (wholeAmount (.integer n)), h.getElem?_preview hrow, ?_,
    filter_thousands _, ?_⟩
  · apply lookup_of_mem
    · rw [List.map_map]
      exact (List.map_id t.columns).symm ▸ h.1
    · exact List.mem_map.2 ⟨name, hname, Prod.ext rfl ((congrArg _ hcell).trans hshown)⟩
  · rw [filter_thousands, ← wholeAmount_integer_eq_iff]
    exact ⟨Number.intText_inj, congrArg _⟩

def transfers : Table where
  columns := ["Amount"]
  rows := [[.int 9007199254740993], [.int 9223372036854775807]]

theorem wellFormed_transfers : transfers.WellFormed := ⟨by decide, by decide⟩

theorem transfers_showsAmounts : ShowsAmounts Rules.standard.currencyTokens "Amount"
    ((transfers.head Rules.standard.rowLimit).columnOf "Amount") :=
  isCurrencyColumn_iff.1 (by decide +kernel)

theorem transfers_integer_amounts :
    transfers.WellFormed ∧ "Amount" ∈ transfers.columns ∧
      ShowsAmounts Rules.standard.currencyTokens "Amount"
        ((transfers.head Rules.standard.rowLimit).columnOf "Amount") ∧
      ∃ members text, (transfers.preview Rules.standard)[1]? = some (.object members) ∧
        members.lookup "Amount" = some (.string text) ∧
        text.toList.filter (· ≠ ',') = Number.intText 9223372036854775807 := by
  refine ⟨wellFormed_transfers, by decide, transfers_showsAmounts, ?_⟩
  obtain ⟨members, text, hrecord, htext, -, hexact⟩ :=
    integer_amounts_shown (i := 1) wellFormed_transfers (by decide) transfers_showsAmounts rfl rfl
  exact ⟨members, text, hrecord, htext, hexact.2 ⟨by decide, .inr rfl⟩⟩

/-- The integer after the last exact one is shown as its neighbour. -/
theorem transfer_shown_one_off :
    (transfers.preview Rules.standard)[0]? =
        some (.object [("Amount", .string "9,007,199,254,740,992")]) ∧
      "9,007,199,254,740,992".toList.filter (· ≠ ',') ≠ Number.intText 9007199254740993 := by
  refine ⟨?_, by decide +kernel⟩
  have hdates : ¬ ShowsDates Rules.standard.dateRatio
      ((transfers.head Rules.standard.rowLimit).columnOf "Amount") :=
    mt isDateColumn_iff.2 (by decide +kernel)
  have htext : thousands (wholeAmount (.integer 9007199254740993)) = "9,007,199,254,740,992" := by
    decide +kernel
  have hshown := (Shown.amount hdates transfers_showsAmounts (.integer 9007199254740993)).cellRule_eq
  rw [htext] at hshown
  rw [wellFormed_transfers.getElem?_preview rfl, ← hshown]
  rfl

end Table
end TablePlanner
