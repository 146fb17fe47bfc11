import TablePlanner.Proofs.Cell.Equality
import TablePlanner.Proofs.Cell.Ties
import TablePlanner.Proofs.Execution.SingleKey
import TablePlanner.Proofs.Json.Read

/-! A filter on the key of a group keeps all rows of the group. It keeps more only where equality is
wider than the order: between arrays or objects with two texts, and where a float is equal to two
integers that are rounded to it. -/
namespace TablePlanner
open Json

namespace Grouping

section
variable {groups : List Group} {j k l : Key} {row : Row}

theorem keyOrder_swap (j k : Key) : (keyOrder j k).swap = keyOrder k j := by
  induction j generalizing k with
  | nil => cases k <;> rfl
  | cons v j ih =>
    cases k with
    | nil => rfl
    | cons w k => rw [keyOrder, keyOrder, Ordering.swap_then, Cell.order_swap, ih]

/-- Keys with more cells than one are not ordered so well: behind a tie, which is not transitive,
their next cells decide. -/
theorem keyOrder_lt_trans (hj : j.length = 1) (hk : k.length = 1) (hl : l.length = 1)
    (h : keyOrder j k = .lt) (h' : keyOrder k l = .lt) : keyOrder j l = .lt := by
  obtain ⟨a, rfl⟩ := List.length_eq_one_iff.1 hj
  obtain ⟨b, rfl⟩ := List.length_eq_one_iff.1 hk
  obtain ⟨c, rfl⟩ := List.length_eq_one_iff.1 hl
  rw [keyOrder_single] at h h' ⊢
  exact Cell.order_lt_trans h h'

theorem ascending_addRow (hkey : k.length = 1) (hkeys : ∀ g ∈ groups, g.key.length = 1)
    (h : groups.Pairwise fun g g' => keyOrder g.key g'.key = .lt) :
    (addRow k row groups).Pairwise fun g g' => keyOrder g.key g'.key = .lt := by
  induction groups with
  | nil => exact List.pairwise_singleton _ _
  | cons g groups ih =>
    obtain ⟨hg, hgroups⟩ := List.pairwise_cons.1 h
    rw [List.forall_mem_cons] at hkeys
    unfold addRow
    split
    · next hlt =>
      refine List.pairwise_cons.2 ⟨?_, h⟩
      intro x hx
      rcases List.mem_cons.1 hx with rfl | hx
      · exact hlt
      · exact keyOrder_lt_trans hkey hkeys.1 (hkeys.2 x hx) hlt (hg x hx)
    · exact List.pairwise_cons.2 ⟨hg, hgroups⟩
    · next hgt =>
      -- The first group stays in front: behind it are later groups, with the row or without it,
      -- and the new group, whose key is greater.
      refine List.pairwise_cons.2 ⟨?_, ih hkeys.2 hgroups⟩
      intro x hx
      rcases mem_addRow hx with hx | rfl | ⟨old, hold, -, rfl⟩
      · exact hg x hx
      · rw [← keyOrder_swap, hgt]
        rfl
      · exact hg old hold

theorem ascending_ofRows (c : Nat) (rows : List Row) :
    (ofRows [c] rows).Pairwise fun g g' => keyOrder g.key g'.key = .lt := by
  induction rows using List.reverseRecOn with
  | nil => exact .nil
  | append_singleton rows row ih =>
    rw [ofRows_concat]
    split
    · exact ih
    · exact ascending_addRow rfl (fun g hg => (drawnFrom_ofRows hg).length_key) ih

theorem filter_flatMap_of_mem {g : Group} {p : Row → Bool} (hg : g ∈ groups)
    (h : groups.Pairwise fun g g' => keyOrder g.key g'.key = .lt)
    (hown : ∀ row ∈ g.rows, p row = true)
    (hother : ∀ other ∈ groups, keyOrder g.key other.key ≠ .eq →
      ∀ row ∈ other.rows, ¬ p row = true) :
    (groups.flatMap (·.rows)).filter p = g.rows := by
  obtain ⟨before, after, rfl⟩ := List.append_of_mem hg
  rw [List.pairwise_append, List.pairwise_cons] at h
  obtain ⟨-, ⟨hafter, -⟩, hbefore⟩ := h
  have hlow : (before.flatMap (·.rows)).filter p = [] := by
    rw [List.filter_eq_nil_iff]
    intro row hrow
    obtain ⟨other, hmem, hrow⟩ := List.mem_flatMap.1 hrow
    have hlt := hbefore other hmem g (by simp)
    rw [← keyOrder_swap, Ordering.swap_eq_lt] at hlt
    exact hother other (by simp [hmem]) (by simp [hlt]) row hrow
  have hhigh : (after.flatMap (·.rows)).filter p = [] := by
    rw [List.filter_eq_nil_iff]
    intro row hrow
    obtain ⟨other, hmem, hrow⟩ := List.mem_flatMap.1 hrow
    exact hother other (by simp [hmem]) (by simp [hafter other hmem]) row hrow
  rw [List.flatMap_append, List.flatMap_cons, List.filter_append, List.filter_append, hlow, hhigh,
    List.filter_eq_self.2 hown, List.nil_append, List.append_nil]

end
end Grouping

namespace Table
open Grouping (Group keyOrder)

section
variable {t : Table} {field : String} {c : Nat} {g : Group} {key : Value}

theorem exists_key (hc : t.columnIndex? field = some c) (hg : g ∈ Grouping.ofRows [c] t.rows) :
    ∃ key ∈ t.columnOf field, g.key = [key] ∧ key.isNull = false := by
  obtain ⟨first, rest, -, hkey, hfirst, hpresent⟩ := exists_first hc hg
  exact ⟨_, cellOf_mem hfirst field, hkey, hpresent⟩

theorem mem_columnOf_of_key (hc : t.columnIndex? field = some c)
    (hg : g ∈ Grouping.ofRows [c] t.rows) (hkey : g.key = [key]) :
    key ∈ t.columnOf field ∧ key.isNull = false := by
  obtain ⟨shown, hmem, hshown, hpresent⟩ := exists_key hc hg
  cases List.singleton_inj.1 (hkey.symm.trans hshown)
  exact ⟨hmem, hpresent⟩

theorem order_ne_of_mem_other {other : Group} (hc : t.columnIndex? field = some c)
    (hother : other ∈ Grouping.ofRows [c] t.rows) (hkey : g.key = [key])
    (hsettled : Cell.Settled (t.columnOf field) key) (hne : keyOrder g.key other.key ≠ .eq) :
    ∀ row ∈ other.rows, Cell.order key (t.cellOf row field) ≠ .eq := by
  intro row hrow heq
  obtain ⟨key', hmem, hkey', -⟩ := exists_key hc hother
  have hcell := cellOf_mem ((Grouping.sublist_of_mem_ofRows hother).1.subset hrow) field
  have hnext := order_of_mem_group hc hother hkey' row hrow
  rw [hkey, hkey', Grouping.keyOrder_single] at hne
  exact hne (hsettled.trans hcell hmem heq (Cell.order_eq_comm.1 hnext))

theorem perm_groupOf (hc : t.columnIndex? field = some c)
    (hg : g ∈ Grouping.ofRows [c] t.rows) (hkey : g.key = [key])
    (hsettled : Cell.Settled (t.columnOf field) key) : g.rows.Perm (t.groupOf field key) := by
  have hown : ∀ row ∈ g.rows, (Cell.order key (t.cellOf row field) == .eq) = true := by
    intro row hrow
    rw [beq_iff_eq]
    exact order_of_mem_group hc hg hkey row hrow
  have hother : ∀ other ∈ Grouping.ofRows [c] t.rows, keyOrder g.key other.key ≠ .eq →
      ∀ row ∈ other.rows, ¬ (Cell.order key (t.cellOf row field) == .eq) = true := by
    intro other hmem hne row hrow
    rw [beq_iff_eq]
    exact order_ne_of_mem_other hc hmem hkey hsettled hne row hrow
  have hpresent := (mem_columnOf_of_key hc hg hkey).2
  -- All rows with a key are in the groups, and of those that tie with this key no other has any.
  have hperm := (Grouping.perm_ofRows [c] t.rows).filter
    fun row => Cell.order key (t.cellOf row field) == .eq
  have hascending := Grouping.ascending_ofRows c t.rows
  rwa [← groupOf_eq_filter_present hc hpresent,
    Grouping.filter_flatMap_of_mem hg hascending hown hother] at hperm

theorem rows_filter (hc : t.columnIndex? field = some c) (key : Value) :
    (t.filter field key).1.rows = t.rows.filter fun row => Cell.equal (t.cellOf row field) key := by
  simp only [filter, hc]
  apply List.filter_congr
  intro row _
  rw [cellOf_of_columnIndex? hc]

theorem length_group_le_filter (hc : t.columnIndex? field = some c)
    (hvalid : ∀ v ∈ t.columnOf field, v.Valid) (hg : g ∈ Grouping.ofRows [c] t.rows)
    (hkey : g.key = [key]) : g.rows.length ≤ (t.filter field key).1.height := by
  have hmem := (mem_columnOf_of_key hc hg hkey).1
  have hall : g.rows.filter (fun row => Cell.equal (t.cellOf row field) key) = g.rows := by
    rw [List.filter_eq_self]
    intro row hrow
    have heq := Cell.order_eq_comm.1 (order_of_mem_group hc hg hkey row hrow)
    have hcell := cellOf_mem ((Grouping.sublist_of_mem_ofRows hg).1.subset hrow) field
    exact ((Cell.order_eq_iff (hvalid _ hcell) (hvalid _ hmem)).1 heq).1
  rw [height, rows_filter hc, ← hall]
  exact ((Grouping.sublist_of_mem_ofRows hg).1.filter _).length_le

theorem height_filter_eq_iff (hc : t.columnIndex? field = some c)
    (hvalid : ∀ v ∈ t.columnOf field, v.Valid) (hkey : key ∈ t.columnOf field) :
    (t.filter field key).1.height = (t.groupOf field key).length ↔
      ∀ v ∈ t.columnOf field, v.IsNested → Cell.equal v key = true → v = key := by
  -- Rows that tie with the key are equal to it, so the group is what a second filter leaves.
  have hgroup : t.groupOf field key = (t.filter field key).1.rows.filter fun row =>
      Cell.order key (t.cellOf row field) == .eq := by
    rw [rows_filter hc, List.filter_filter, groupOf]
    apply List.filter_congr
    intro row hrow
    rw [Bool.eq_iff_iff, Bool.and_eq_true, beq_iff_eq]
    constructor
    · intro heq
      have hiff := Cell.order_eq_iff (hvalid _ (cellOf_mem hrow field)) (hvalid _ hkey)
      exact ⟨heq, (hiff.1 (Cell.order_eq_comm.1 heq)).1⟩
    · exact And.left
  rw [hgroup, height, eq_comm, List.length_filter_eq_length_iff, rows_filter hc]
  constructor
  · intro h v hv hnested hequal
    obtain ⟨row, hrow, rfl⟩ := List.mem_map.1 hv
    have heq := h row (List.mem_filter.2 ⟨hrow, hequal⟩)
    rw [beq_iff_eq, Cell.order_eq_comm,
      Cell.order_eq_iff (hvalid _ hv) (hvalid _ hkey)] at heq
    exact heq.2 hnested
  · intro h row hrow
    obtain ⟨hrow, hequal⟩ := List.mem_filter.1 hrow
    have hcell := cellOf_mem hrow field
    rw [beq_iff_eq, Cell.order_eq_comm,
      Cell.order_eq_iff (hvalid _ hcell) (hvalid _ hkey)]
    exact ⟨hequal, fun hnested => h _ hcell hnested hequal⟩

end

/-- Equality and order have the same ties but for arrays and objects, and a group counts the rows
that a filter on its key keeps. -/
theorem filter_counts_group :
    (∀ a b : Value, a.Valid → b.Valid →
      (Cell.order a b = .eq ↔ Cell.equal a b = true ∧ (a.IsNested → a = b))) ∧
    ∀ (t : Table) (field counted label : String), field ∈ t.columns → label ≠ field →
      (∀ v ∈ t.columnOf field, v.Valid) →
      ∃ (u : Table) (notes : List Note),
        t.groupBy [field] [⟨counted, .count, label⟩] = .ok (u, notes) ∧
        ∀ row ∈ u.rows, ∃ key ∈ t.columnOf field, ∃ n : Nat, row = [key, .nat n] ∧
          n ≤ (t.filter field key).1.height ∧
          (Cell.Settled (t.columnOf field) key →
            ((t.filter field key).1.height = n ↔
              ∀ v ∈ t.columnOf field, v.IsNested → Cell.equal v key = true → v = key)) := by
  constructor
  · intro a b ha hb
    exact Cell.order_eq_iff ha hb
  · intro t field counted label hfield hlabel hvalid
    obtain ⟨c, hc⟩ := exists_columnIndex?_iff.2 hfield
    have hcount : ∀ source, Grouping.source? t ⟨counted, .count, label⟩ = some source →
        ∀ g ∈ Grouping.ofRows [c] t.rows,
          Grouping.Accepted.value ⟨⟨counted, .count, label⟩, source⟩ g.rows =
            .ok (.nat g.rows.length) := by
      intro source hsource g _
      cases hsource
      rfl
    obtain ⟨notes, hgrouped⟩ := groupBy_single hc (.inl rfl) hlabel hcount
    refine ⟨_, notes, hgrouped, ?_⟩
    intro row hrow
    obtain ⟨g, hg, rfl⟩ := List.mem_map.1 hrow
    obtain ⟨key, hmem, hkey, -⟩ := exists_key hc hg
    refine ⟨key, hmem, g.rows.length, by rw [hkey]; rfl, ?_, ?_⟩
    · exact length_group_le_filter hc hvalid hg hkey
    · intro hsettled
      rw [(perm_groupOf hc hg hkey hsettled).length_eq]
      exact height_filter_eq_iff hc hvalid hmem

def repeated : Table where
  columns := ["v"]
  rows :=
    [[.string "Seoul"], [.int 0], [.object [("a", .int 1)]], [.string "Seoul"],
     [.number (.float .zero)], [.object [("a", .int 1)]]]

theorem columnOf_repeated : repeated.columnOf "v" =
    [.string "Seoul", .int 0, .object [("a", .int 1)], .string "Seoul", .number (.float .zero),
      .object [("a", .int 1)]] := rfl

theorem valid_repeated : ∀ v ∈ repeated.columnOf "v", v.Valid := by
  have hread : Document.toValues
      [.object [(some "v", .string (some "Seoul"))] true, .object [(some "v", .number "0")] true,
       .object [(some "v", .object [(some "a", .number "1")] true)] true,
       .object [(some "v", .string (some "Seoul"))] true, .object [(some "v", .number "0.0")] true,
       .object [(some "v", .object [(some "a", .number "1")] true)] true] =
      .ok (repeated.rows.map fun row => .object (repeated.columns.zip row)) := rfl
  have hbuilt : ofRecords (repeated.rows.map fun row => .object (repeated.columns.zip row)) =
      .ok repeated := rfl
  exact valid_columnOf (valid_of_ofRecords hbuilt (Document.valid_of_toValues hread)) "v"

theorem unmixed_repeated : Cell.Unmixed (repeated.columnOf "v") := by
  rw [columnOf_repeated]
  intro x n _ hn
  simp [Value.int] at hn
  rw [hn]
  decide

theorem filter_counts_repeated :
    Cell.order (.object [("a", .int 1)]) (.object [("a", .int 1)]) = .eq ∧
    ∃ (u : Table) (notes : List Note),
      repeated.groupBy ["v"] [⟨"v", .count, "n"⟩] = .ok (u, notes) ∧
      ∀ row ∈ u.rows, ∃ key ∈ repeated.columnOf "v", ∃ n : Nat, row = [key, .nat n] ∧
        (repeated.filter "v" key).1.height = n := by
  have hobject : (Value.object [("a", .int 1)]).Valid := by
    apply valid_repeated
    simp [columnOf_repeated]
  have hself : Cell.equal (.object [("a", .int 1)]) (.object [("a", .int 1)]) = true := by decide
  have horder := (filter_counts_group.1 _ _ hobject hobject).2 ⟨hself, fun _ => rfl⟩
  obtain ⟨u, notes, hgrouped, hrows⟩ := filter_counts_group.2 repeated "v" "v" "n" (by decide)
    (by decide) valid_repeated
  refine ⟨horder, u, notes, hgrouped, ?_⟩
  intro row hrow
  obtain ⟨key, hkey, n, hshown, -, hcount⟩ := hrows row hrow
  refine ⟨key, hkey, n, hshown, (hcount (unmixed_repeated.settled hkey)).2 ?_⟩
  intro v hv hnested hequal
  rw [columnOf_repeated] at hkey hv
  have hv : v = .object [("a", .int 1)] := by
    simp only [List.mem_cons, List.not_mem_nil, or_false] at hv
    rcases hv with rfl | rfl | rfl | rfl | rfl | rfl
    · exact hnested.elim
    · exact hnested.elim
    · rfl
    · exact hnested.elim
    · exact hnested.elim
    · rfl
  rw [hv] at hequal ⊢
  simp only [List.mem_cons, List.not_mem_nil, or_false] at hkey
  rcases hkey with rfl | rfl | rfl | rfl | rfl | rfl
  · cases hequal
  · cases hequal
  · rfl
  · cases hequal
  · cases hequal
  · rfl

def swapped : Table where
  columns := ["v"]
  rows := [[.object [("a", .int 1), ("b", .int 2)]], [.object [("b", .int 2), ("a", .int 1)]]]

def tied (m n : Int) (x : Binary64) : Table where
  columns := ["v"]
  rows := [[.int m], [.int n], [.number (.float x)]]

/-- A float goes into the first group that it ties with. -/
theorem groupBy_tied {m n : Int} {x : Binary64} (hlt : m < n)
    (htie : Cell.order (.number (.float x)) (.int m) = .eq) :
    (tied m n x).groupBy ["v"] [⟨"v", .count, "n"⟩] =
      .ok (⟨["v", "n"], [[.int m, .nat 2], [.int n, .nat 1]]⟩, []) := by
  have habove : Cell.order (.int n) (.int m) = .gt := compare_gt_iff_gt.2 hlt
  have hadded : Grouping.ofRows [0] (tied m n x).rows =
      Grouping.addRow [.number (.float x)] [.number (.float x)]
        (Grouping.addRow [.int n] [.int n] (Grouping.addRow [.int m] [.int m] [])) := rfl
  have hgroups : Grouping.ofRows [0] (tied m n x).rows =
      [⟨[.int m], [[.int m], [.number (.float x)]]⟩, ⟨[.int n], [[.int n]]⟩] := by
    rw [hadded]
    simp [Grouping.addRow, Grouping.keyOrder, habove, htie]
  have hcolumns : (tied m n x).knownColumns ["v"] = [0] := rfl
  simp only [groupBy, hcolumns, hgroups]
  rfl

theorem filter_keeps_more_than_group :
    (Cell.equal (.object [("a", .int 1), ("b", .int 2)]) (.object [("b", .int 2), ("a", .int 1)]) =
        true ∧
      Cell.order (.object [("a", .int 1), ("b", .int 2)])
        (.object [("b", .int 2), ("a", .int 1)]) ≠ .eq) ∧
    (swapped.groupBy ["v"] [⟨"v", .count, "n"⟩] = .ok (⟨["v", "n"],
        [[.object [("a", .int 1), ("b", .int 2)], .nat 1],
         [.object [("b", .int 2), ("a", .int 1)], .nat 1]]⟩, []) ∧
      (swapped.filter "v" (.object [("a", .int 1), ("b", .int 2)])).1.height = 2) ∧
    ((tied 9007199254740992 9007199254740993 (.ofInt 9007199254740992)).groupBy ["v"]
        [⟨"v", .count, "n"⟩] = .ok (⟨["v", "n"],
          [[.int 9007199254740992, .nat 2], [.int 9007199254740993, .nat 1]]⟩, []) ∧
      ((tied 9007199254740992 9007199254740993 (.ofInt 9007199254740992)).filter "v"
        (.int 9007199254740993)).1.height = 2) := by
  refine ⟨?_, ?_, ?_⟩
  · decide
  · exact ⟨rfl, rfl⟩
  · constructor
    · apply groupBy_tied <;> decide +kernel
    · decide +kernel

end Table
end TablePlanner
