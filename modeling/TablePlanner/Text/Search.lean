namespace TablePlanner.Text

def occurs (pattern : List Char) : List Char → Bool
  | [] => pattern.isEmpty
  | c :: cs => pattern.isPrefixOf (c :: cs) || occurs pattern cs

theorem occurs_iff_infix (pattern text : List Char) :
    occurs pattern text = true ↔ pattern <:+: text := by
  induction text with
  | nil => simp [occurs]
  | cons c cs ih =>
    rw [occurs, Bool.or_eq_true, ih, List.isPrefixOf_iff_prefix, List.infix_cons_iff]

def holds (s pattern : String) : Bool := occurs pattern.toList s.toList

end TablePlanner.Text
