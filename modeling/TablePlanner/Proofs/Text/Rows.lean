import Mathlib.Algebra.Ring.Nat

/-! A line feed or a carriage return ends a line, and a bar stands between two cells unless a
backslash before it takes it. A break in a line makes one line more, and a bar in a cell one bar
more. -/
namespace TablePlanner.Markdown

def isBreak (c : Char) : Bool := c == '\n' || c == '\r'

def linesFrom (line : List Char) : List Char → List (List Char)
  | [] => if line.isEmpty then [] else [line]
  | c :: cs => if isBreak c then line :: linesFrom [] cs else linesFrom (line ++ [c]) cs

def lines (text : List Char) : List (List Char) := linesFrom [] text

def takes (taken : Bool) : List Char → Bool
  | [] => taken
  | c :: cs => takes (!taken && c == '\\') cs

/-- How many bars of a text are not taken, its first character being taken or not. -/
def barsFrom (taken : Bool) : List Char → Nat
  | [] => 0
  | c :: cs => (if !taken && c == '|' then 1 else 0) + barsFrom (!taken && c == '\\') cs

def bars (line : List Char) : Nat := barsFrom false line

def cellsFrom (taken : Bool) (cell : List Char) : List Char → List (List Char)
  | [] => [cell]
  | c :: cs =>
    if !taken && c == '|' then cell :: cellsFrom false [] cs
    else cellsFrom (!taken && c == '\\') (cell ++ [c]) cs

def cells (line : List Char) : List (List Char) := cellsFrom false [] line

section
variable {xs ys line cell rest : List Char} {c : Char} {taken : Bool}

theorem linesFrom_append (h : ∀ c ∈ xs, isBreak c = false) :
    linesFrom line (xs ++ rest) = linesFrom (line ++ xs) rest := by
  induction xs generalizing line with
  | nil => rw [List.nil_append, List.append_nil]
  | cons c xs ih =>
    obtain ⟨hc, hxs⟩ := List.forall_mem_cons.1 h
    rw [List.cons_append, linesFrom, if_neg (by simp [hc]), ih hxs, List.append_assoc,
      List.singleton_append]

/-- Lines without breaks are read back from the text in which each of them is ended. -/
theorem lines_ended {texts : List (List Char)} (h : ∀ text ∈ texts, ∀ c ∈ text, isBreak c = false) :
    lines (texts.flatMap (· ++ ['\n'])) = texts := by
  induction texts with
  | nil => rfl
  | cons text texts ih =>
    obtain ⟨htext, htexts⟩ := List.forall_mem_cons.1 h
    rw [List.flatMap_cons, List.append_assoc, lines, linesFrom_append htext]
    exact congrArg (text :: ·) (ih htexts)

theorem length_linesFrom_append_cons (hc : isBreak c = true) :
    (linesFrom line (xs ++ c :: rest)).length =
      xs.countP isBreak + 1 + (lines rest).length := by
  induction xs generalizing line with
  | nil =>
    rw [List.nil_append, linesFrom, if_pos hc, List.length_cons, List.countP_nil, lines]
    omega
  | cons d xs ih =>
    rw [List.cons_append, linesFrom]
    by_cases hd : isBreak d = true
    · rw [if_pos hd, List.length_cons, ih, List.countP_cons_of_pos hd]
      omega
    · rw [if_neg hd, ih, List.countP_cons_of_neg hd]

theorem length_lines_ended (texts : List (List Char)) :
    (lines (texts.flatMap (· ++ ['\n']))).length =
      texts.length + (texts.map (·.countP isBreak)).sum := by
  induction texts with
  | nil => rfl
  | cons text texts ih =>
    rw [List.flatMap_cons, List.append_assoc, lines, List.singleton_append,
      length_linesFrom_append_cons rfl, ih, List.length_cons, List.map_cons, List.sum_cons]
    omega

theorem takes_append (xs ys : List Char) : takes taken (xs ++ ys) = takes (takes taken xs) ys := by
  induction xs generalizing taken with
  | nil => rfl
  | cons c xs ih => exact ih

theorem takes_concat (hc : c ≠ '\\') : takes taken (xs ++ [c]) = false := by
  rw [takes_append]
  simp [takes, hc]

theorem barsFrom_append (xs ys : List Char) :
    barsFrom taken (xs ++ ys) = barsFrom taken xs + barsFrom (takes taken xs) ys := by
  induction xs generalizing taken with
  | nil => rw [List.nil_append, barsFrom, Nat.zero_add, takes]
  | cons c xs ih => rw [List.cons_append, barsFrom, barsFrom, takes, ih, Nat.add_assoc]

theorem cellsFrom_append (h : barsFrom taken xs = 0) :
    cellsFrom taken cell (xs ++ rest) = cellsFrom (takes taken xs) (cell ++ xs) rest := by
  induction xs generalizing taken cell with
  | nil => rw [List.nil_append, List.append_nil, takes]
  | cons c xs ih =>
    rw [barsFrom] at h
    have hc : (!taken && c == '|') = false := by
      by_contra hbar
      rw [Bool.not_eq_false] at hbar
      rw [hbar] at h
      simp at h
    rw [List.cons_append, cellsFrom, hc, takes]
    rw [if_neg Bool.false_ne_true, ih (by omega), List.append_assoc, List.singleton_append]

theorem barsFrom_eq_zero (h : '|' ∉ xs) : barsFrom taken xs = 0 := by
  induction xs generalizing taken with
  | nil => rfl
  | cons c xs ih =>
    obtain ⟨hc, hxs⟩ := not_or.1 (mt List.mem_cons.2 h)
    simp [barsFrom, ih hxs, Ne.symm hc]

theorem bars_between (hx : '|' ∉ xs) (hclosed : takes false xs = false) (hy : '|' ∉ ys) :
    bars (xs ++ line ++ ys) = bars line := by
  rw [bars, barsFrom_append, barsFrom_append, barsFrom_eq_zero hx, barsFrom_eq_zero hy, hclosed,
    Nat.zero_add, Nat.add_zero, bars]

theorem bars_intercalate {sep : List Char} {texts : List (List Char)}
    (hbars : ∀ taken, barsFrom taken sep = 0) (hclosed : ∀ taken, takes taken sep = false) :
    bars (sep.intercalate texts) = (texts.map bars).sum := by
  induction texts with
  | nil => rfl
  | cons text texts ih =>
    cases texts with
    | nil => simp [List.intercalate]
    | cons next texts =>
      rw [List.intercalate_cons_cons, bars, barsFrom_append, barsFrom_append, takes_append, hbars,
        hclosed, List.map_cons, List.sum_cons, ← ih, Nat.add_zero]
      rfl

end

theorem countP_intercalate {sep : List Char} {texts : List (List Char)} {p : Char → Bool}
    (h : sep.countP p = 0) : (sep.intercalate texts).countP p = (texts.map (·.countP p)).sum := by
  induction texts with
  | nil => rfl
  | cons text texts ih =>
    cases texts with
    | nil => simp [List.intercalate]
    | cons next texts =>
      rw [List.intercalate_cons_cons, List.countP_append, List.countP_append, h, ih, Nat.add_zero]
      rfl

def row (fields : List (List Char)) : List Char := '|' :: fields.flatMap (· ++ ['|'])

section
variable {fields : List (List Char)}

theorem bars_row (h : ∀ field ∈ fields, takes false field = false) :
    bars (row fields) = (fields.map bars).sum + fields.length + 1 := by
  have hrest : barsFrom false (fields.flatMap (· ++ ['|'])) =
      (fields.map bars).sum + fields.length := by
    induction fields with
    | nil => rfl
    | cons field fields ih =>
      obtain ⟨hfield, hfields⟩ := List.forall_mem_cons.1 h
      have hbar : barsFrom false ['|'] = 1 := rfl
      have hclosed : takes false ['|'] = false := rfl
      rw [List.flatMap_cons, barsFrom_append, takes_append, barsFrom_append, hfield, hbar,
        hclosed, ih hfields, List.map_cons, List.sum_cons, List.length_cons, bars]
      omega
  have hfirst : bars (row fields) = 1 + barsFrom false (fields.flatMap (· ++ ['|'])) := rfl
  rw [hfirst, hrest, Nat.add_comm]

theorem cells_row (h : ∀ field ∈ fields, takes false field = false)
    (hbars : ∀ field ∈ fields, bars field = 0) : cells (row fields) = [] :: fields ++ [[]] := by
  have hrest : cellsFrom false [] (fields.flatMap (· ++ ['|'])) = fields ++ [[]] := by
    induction fields with
    | nil => rfl
    | cons field fields ih =>
      obtain ⟨hfield, hfields⟩ := List.forall_mem_cons.1 h
      obtain ⟨hnone, hnones⟩ := List.forall_mem_cons.1 hbars
      rw [List.flatMap_cons, List.append_assoc, cellsFrom_append hnone, hfield]
      exact congrArg (field :: ·) (ih hfields hnones)
  exact congrArg ([] :: ·) hrest

end
end TablePlanner.Markdown
