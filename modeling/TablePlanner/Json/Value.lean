import TablePlanner.Json.Number

namespace TablePlanner.Json

inductive Value where
  | null
  | bool (b : Bool)
  | number (n : Number)
  | string (s : String)
  | array (items : List Value)
  | object (members : List (String × Value))
deriving Repr, Inhabited

/-- Puts a member under a key, in place if the key is there and at the end if not. -/
def putMember (key : String) (v : α) : List (String × α) → List (String × α)
  | [] => [(key, v)]
  | (k, w) :: ms => if k = key then (k, v) :: ms else (k, w) :: putMember key v ms

theorem lookup_putMember_self (key : String) (v : α) (ms : List (String × α)) :
    (putMember key v ms).lookup key = some v := by
  induction ms with
  | nil => simp [putMember]
  | cons m ms ih =>
    obtain ⟨k, w⟩ := m
    by_cases hk : k = key
    · simp [putMember, hk]
    · have hne : (key == k) = false := by simpa using Ne.symm hk
      simp [putMember, hk, List.lookup_cons, hne, ih]

theorem lookup_putMember_of_ne {key other : String} (h : other ≠ key) (v : α)
    (ms : List (String × α)) : (putMember key v ms).lookup other = ms.lookup other := by
  have hne : (other == key) = false := by simpa using h
  induction ms with
  | nil => simp [putMember, List.lookup_cons, hne]
  | cons m ms ih =>
    obtain ⟨k, w⟩ := m
    by_cases hk : k = key
    · subst hk
      simp [putMember, List.lookup_cons, hne]
    · simp only [putMember, hk, if_false, List.lookup_cons]
      rw [ih]

theorem keys_putMember (key : String) (v : α) (ms : List (String × α)) :
    (putMember key v ms).map (·.1) =
      if key ∈ ms.map (·.1) then ms.map (·.1) else ms.map (·.1) ++ [key] := by
  induction ms with
  | nil => rfl
  | cons m ms ih =>
    obtain ⟨k, w⟩ := m
    by_cases hk : k = key
    · simp [putMember, hk]
    · simp only [putMember, hk, if_false, List.map_cons, ih, List.mem_cons, Ne.symm hk, false_or]
      split <;> rfl

namespace Value

def int (n : Int) : Value := .number (.integer n)

def nat (n : Nat) : Value := .number (.integer n)

def strings (ss : List String) : Value := .array (ss.map .string)

/-- A float, or null in place of one beyond the finite range. -/
def ofFloat : Option Binary64 → Value
  | some x => .number (.float x)
  | none => .null

def isNull : Value → Bool
  | .null => true
  | _ => false

def isNumber : Value → Bool
  | .number _ => true
  | _ => false

mutual

/-- Structural equality. The order of an object's members does not matter. -/
def same : Value → Value → Bool
  | .null, .null => true
  | .bool a, .bool b => a == b
  | .number a, .number b => a.same b
  | .string a, .string b => a == b
  | .array as, .array bs => sameItems as bs
  | .object as, .object bs => as.length == bs.length && sameMembers as bs
  | _, _ => false

def sameItems : List Value → List Value → Bool
  | [], [] => true
  | a :: as, b :: bs => same a b && sameItems as bs
  | _, _ => false

def sameMembers : List (String × Value) → List (String × Value) → Bool
  | [], _ => true
  | (k, a) :: as, bs =>
    (match bs.lookup k with
      | some b => same a b
      | none => false) && sameMembers as bs

end

def hexDigit (n : Nat) : Char := if n < 10 then Char.ofNat (48 + n) else Char.ofNat (87 + n)

def escape (c : Char) : List Char :=
  if c = '"' then ['\\', '"']
  else if c = '\\' then ['\\', '\\']
  else if c.toNat < 0x20 then
    match c.toNat with
    | 8 => ['\\', 'b']
    | 9 => ['\\', 't']
    | 10 => ['\\', 'n']
    | 12 => ['\\', 'f']
    | 13 => ['\\', 'r']
    | n => ['\\', 'u', '0', '0', hexDigit (n / 16), hexDigit (n % 16)]
  else [c]

def quoted (s : String) : List Char := '"' :: s.toList.flatMap escape ++ ['"']

mutual

def text : Value → List Char
  | .null => ['n', 'u', 'l', 'l']
  | .bool true => ['t', 'r', 'u', 'e']
  | .bool false => ['f', 'a', 'l', 's', 'e']
  | .number n => n.text
  | .string s => quoted s
  | .array [] => ['[', ']']
  | .array (v :: vs) => '[' :: text v ++ itemsText vs
  | .object [] => ['\x7b', '\x7d']
  | .object ((k, v) :: ms) => '\x7b' :: quoted k ++ ':' :: text v ++ membersText ms

def itemsText : List Value → List Char
  | [] => [']']
  | v :: vs => ',' :: text v ++ itemsText vs

def membersText : List (String × Value) → List Char
  | [] => ['\x7d']
  | (k, v) :: ms => ',' :: quoted k ++ ':' :: text v ++ membersText ms

end

def render (v : Value) : String := String.ofList v.text

end Value
end TablePlanner.Json
