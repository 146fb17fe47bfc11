import TablePlanner.Service.Settings

namespace TablePlanner
namespace Settings

/-- Whether a text gives a port: decimal digits with its value, and perhaps a plus sign before. -/
def GivesPort (text : String) (n : Nat) : Prop :=
  n ≤ 65535 ∧ ∃ digits : List Char, digits ≠ [] ∧ (∀ c ∈ digits, c.isDigit) ∧
    Nat.ofDigitChars 10 digits 0 = n ∧ (text.toList = digits ∨ text.toList = '+' :: digits)

/-- Settings in which each variable that is set has replaced its setting. -/
structure Overridden (lookup : String → Option String) (before after : Settings) : Prop where
  host : after.server.host = (lookup "TABPLAN_SERVER_HOST").getD before.server.host
  port : (lookup "TABPLAN_SERVER_PORT" = none → after.server.port = before.server.port) ∧
    ∀ text, lookup "TABPLAN_SERVER_PORT" = some text → GivesPort text after.server.port
  level : after.logging.level = (lookup "RUST_LOG").getD before.logging.level
  format : after.logging.format = (lookup "LOG_FORMAT").getD before.logging.format
  output : after.logging.output = (lookup "LOG_OUTPUT").getD before.logging.output
  directory : after.logging.directory = (lookup "LOG_DIR").getD before.logging.directory
  engine : after.engine = before.engine

def withHost (lookup : String → Option String) (s : Settings) : Settings :=
  { s with server := { s.server with
    host := (lookup "TABPLAN_SERVER_HOST").getD s.server.host } }

section
variable {lookup : String → Option String} {s : Settings} {text : String} {n : Nat}

theorem overrideHost_eq : overrideHost (lookup "TABPLAN_SERVER_HOST") s = s.withHost lookup := by
  unfold overrideHost withHost
  cases lookup "TABPLAN_SERVER_HOST" <;> rfl

theorem value_eq_some_iff (digits : List Char) :
    (if digits.isEmpty || !digits.all Char.isDigit then none
      else if Nat.ofDigitChars 10 digits 0 ≤ 65535 then some (Nat.ofDigitChars 10 digits 0)
      else none) = some n ↔
    n ≤ 65535 ∧ digits ≠ [] ∧ (∀ c ∈ digits, c.isDigit) ∧ Nat.ofDigitChars 10 digits 0 = n := by
  cases digits with
  | nil => simp
  | cons d ds =>
    by_cases hdigits : (d :: ds).all Char.isDigit = true
    · rw [hdigits]
      have hall : ∀ c ∈ d :: ds, c.isDigit := List.all_eq_true.1 hdigits
      simp only [List.isEmpty_cons, Bool.not_true, Bool.or_self, Bool.false_eq_true, if_false,
        Option.ite_none_right_eq_some, Option.some.injEq]
      constructor
      · rintro ⟨hrange, rfl⟩
        exact ⟨hrange, List.cons_ne_nil _ _, hall, rfl⟩
      · rintro ⟨hrange, -, -, rfl⟩
        exact ⟨hrange, rfl⟩
    · rw [if_pos (by simp [hdigits])]
      refine iff_of_false (by simp) ?_
      rintro ⟨-, -, hall, -⟩
      exact hdigits (List.all_eq_true.2 hall)

theorem portOfText?_eq_some_iff : portOfText? text = some n ↔ GivesPort text n := by
  unfold portOfText?
  dsimp only
  split
  · next cs htext =>
    rw [value_eq_some_iff]
    constructor
    · rintro ⟨hrange, hne, hall, hvalue⟩
      exact ⟨hrange, cs, hne, hall, hvalue, .inr htext⟩
    · rintro ⟨hrange, digits, hne, hall, hvalue, hdigits | hplus⟩
      · have hdigit : '+'.isDigit := hall '+' (by simp [← hdigits, htext])
        exact absurd hdigit (by decide)
      · obtain rfl : cs = digits := (List.cons.inj (htext.symm.trans hplus)).2
        exact ⟨hrange, hne, hall, hvalue⟩
  · next hplain =>
    rw [value_eq_some_iff]
    constructor
    · rintro ⟨hrange, hne, hall, hvalue⟩
      exact ⟨hrange, _, hne, hall, hvalue, .inl rfl⟩
    · rintro ⟨hrange, digits, hne, hall, hvalue, rfl | hplus⟩
      · exact ⟨hrange, hne, hall, hvalue⟩
      · exact absurd hplus (hplain digits)

theorem override_of_refused (hport : lookup "TABPLAN_SERVER_PORT" = some text)
    (hrefused : portOfText? text = none) :
    override lookup s =
      (s.withHost lookup, some (.invalidVariable "TABPLAN_SERVER_PORT" text)) := by
  unfold override
  dsimp only
  rw [overrideHost_eq, hport]
  dsimp only
  rw [hrefused]

theorem exists_override (h : ∀ text, lookup "TABPLAN_SERVER_PORT" = some text →
    ∃ n, GivesPort text n) :
    (override lookup s).2 = none ∧ Overridden lookup s (override lookup s).1 := by
  unfold override
  dsimp only
  rw [overrideHost_eq]
  cases hport : lookup "TABPLAN_SERVER_PORT" with
  | none => exact ⟨rfl, ⟨rfl, ⟨fun _ => rfl, by simp [hport]⟩, rfl, rfl, rfl, rfl, rfl⟩⟩
  | some text =>
    obtain ⟨n, hn⟩ := h text hport
    dsimp only
    rw [portOfText?_eq_some_iff.2 hn]
    refine ⟨rfl, ⟨rfl, ⟨by simp [hport], fun other hother => ?_⟩, rfl, rfl, rfl, rfl, rfl⟩⟩
    obtain rfl : text = other := Option.some.inj (hport.symm.trans hother)
    exact hn

end

/-- Overrides either replace every setting whose variable is set, or stop at a port that is refused
and have replaced the host alone. -/
theorem override_all_or_host (lookup : String → Option String) (s : Settings) :
    ((override lookup s).2 = none → Overridden lookup s (override lookup s).1) ∧
    (∀ e, (override lookup s).2 = some e → (override lookup s).1 = s.withHost lookup) ∧
    (∀ e, (override lookup s).2 = some e ↔
      ∃ text, lookup "TABPLAN_SERVER_PORT" = some text ∧ (¬ ∃ n, GivesPort text n) ∧
        e = .invalidVariable "TABPLAN_SERVER_PORT" text) := by
  by_cases h : ∀ text, lookup "TABPLAN_SERVER_PORT" = some text → ∃ n, GivesPort text n
  · obtain ⟨hnone, hover⟩ := exists_override (s := s) h
    refine ⟨fun _ => hover, by simp [hnone], fun e => iff_of_false (by simp [hnone]) ?_⟩
    rintro ⟨text, hport, hrefused, -⟩
    exact hrefused (h text hport)
  · obtain ⟨text, htext⟩ := Classical.not_forall.1 h
    obtain ⟨hport, hrefused⟩ := Classical.not_imp.1 htext
    have hread : portOfText? text = none := by
      rw [Option.eq_none_iff_forall_not_mem]
      exact fun n hn => hrefused ⟨n, portOfText?_eq_some_iff.1 hn⟩
    rw [override_of_refused hport hread]
    refine ⟨by simp, fun _ _ => rfl, fun e => ?_⟩
    constructor
    · rintro ⟨⟩
      exact ⟨text, hport, hrefused, rfl⟩
    · rintro ⟨other, hother, -, rfl⟩
      obtain rfl : text = other := Option.some.inj (hport.symm.trans hother)
      rfl

def wordForPort (name : String) : Option String :=
  [("TABPLAN_SERVER_HOST", "0.0.0.0"), ("TABPLAN_SERVER_PORT", "http")].lookup name

theorem host_replaced_beside_refused_port :
    (override wordForPort standard).2 =
        some (.invalidVariable "TABPLAN_SERVER_PORT" "http") ∧
      (override wordForPort standard).1 ≠ standard := by
  have hrefused : override wordForPort standard = (standard.withHost wordForPort,
      some (.invalidVariable "TABPLAN_SERVER_PORT" "http")) :=
    override_of_refused (by decide) (by decide)
  rw [hrefused]
  refine ⟨rfl, fun hsame => ?_⟩
  have hhost := congrArg (·.server.host) hsame
  revert hhost
  decide

end Settings
end TablePlanner
