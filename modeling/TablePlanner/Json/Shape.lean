import TablePlanner.Json.Document

/-! Readers walk a document in the order of its text and stop at the first fault: malformed where
the text breaks or a literal names nothing, misshapen where the type asks for something else. -/
namespace TablePlanner.Json

inductive Fault where
  | malformed
  | misshapen
deriving DecidableEq, Repr

abbrev Reader (α : Type) := Document → Except Fault α

def Reader.map (f : α → β) (read : Reader α) : Reader β := fun d => f <$> read d

namespace Document

def fault : Document → Fault
  | .broken => .malformed
  | .string none => .malformed
  | .number literal => if (Number.ofLiteral? literal.toList).isNone then .malformed else .misshapen
  | _ => .misshapen

def toText : Reader String
  | .string (some s) => .ok s
  | d => .error d.fault

def toBool : Reader Bool
  | .bool b => .ok b
  | d => .error d.fault

/-- An integer from `least` to `greatest`. A literal with a fraction or an exponent is none. -/
def toInteger (least greatest : Int) : Reader Int
  | .number literal =>
    match Number.ofLiteral? literal.toList with
    | some (.integer n) => if least ≤ n ∧ n ≤ greatest then .ok n else .error .misshapen
    | some (.float _) => .error .misshapen
    | none => .error .malformed
  | d => .error d.fault

def toInt64 : Reader Int := toInteger leastInt64 greatestInt64

def toNat64 : Reader Nat := Reader.map Int.toNat (toInteger 0 greatestNat64)

def toFloat : Reader Binary64
  | .number literal =>
    match Number.ofLiteral? literal.toList with
    | some n => .ok n.binary64
    | none => .error .malformed
  | d => .error d.fault

def toList (read : Reader α) : Reader (List α)
  | .array items closed => do
    let values ← items.mapM read
    if closed then return values else throw .malformed
  | d => .error d.fault

def toTexts : Reader (List String) := toList toText

def toOption (read : Reader α) : Reader (Option α)
  | .null => .ok none
  | d => some <$> read d

mutual

/-- Any value. A repeated key keeps its first place and its last value. -/
def toValue : Reader Value
  | .null => .ok .null
  | .bool b => .ok (.bool b)
  | .number literal =>
    match Number.ofLiteral? literal.toList with
    | some n => .ok (.number n)
    | none => .error .malformed
  | .string (some s) => .ok (.string s)
  | .string none => .error .malformed
  | .array items closed => do
    let values ← toValues items
    if closed then return .array values else throw .malformed
  | .object members closed => do
    let members ← toMembers [] members
    if closed then return .object members else throw .malformed
  | .broken => .error .malformed

def toValues : List Document → Except Fault (List Value)
  | [] => .ok []
  | d :: ds => do return (← toValue d) :: (← toValues ds)

def toMembers (held : List (String × Value)) :
    List (Option String × Document) → Except Fault (List (String × Value))
  | [] => .ok held
  | (some k, d) :: ms => do toMembers (putMember k (← toValue d) held) ms
  | (none, _) :: _ => .error .malformed

end

def toEntries (read : Reader α) (held : List (String × α)) :
    List (Option String × Document) → Except Fault (List (String × α))
  | [] => .ok held
  | (some k, d) :: ms => do toEntries read (putMember k (← read d) held) ms
  | (none, _) :: _ => .error .malformed

/-- A map from names to values of one type. The last value of a name counts. -/
def toMap (read : Reader α) : Reader (List (String × α))
  | .object members closed => do
    let entries ← toEntries read [] members
    if closed then return entries else throw .malformed
  | d => .error d.fault

def toNamed (choose : String → Option α) : Reader α := fun d => do
  match choose (← toText d) with
  | some a => return a
  | none => throw .misshapen

/-- One of some alternatives, given by its name alone or as the key of a null. -/
def toChoice (choose : String → Option α) : Reader α
  | .object ((some s, d) :: ms) closed =>
    match choose s, d with
    | some a, .null => if closed && ms.isEmpty then .ok a else .error .malformed
    | some _, d => .error d.fault
    | none, _ => .error .misshapen
  | .object _ _ => .error .malformed
  | d => toNamed choose d

/-- A choice inside a document that is held as a whole, where an empty object may stand for the
null. -/
def toHeldChoice (choose : String → Option α) : Reader α
  | .object [(some s, .object [] true)] true => toNamed choose (.string (some s))
  | d => toChoice choose d

end Document

/-- A field of a record of type `σ`: the names it goes by, whether it must be there, and how its
document changes the record. -/
structure RecordField (σ : Type) where
  names : List String
  required : Bool
  read : Document → σ → Except Fault σ

namespace Document

def readFields (fields : List (RecordField σ)) :
    List (RecordField σ) → σ → List (Option String × Document) →
      Except Fault (List (RecordField σ) × σ)
  | pending, record, [] => .ok (pending, record)
  | _, _, (none, _) :: _ => .error .malformed
  | pending, record, (some k, d) :: ms =>
    match pending.find? (·.names.contains k) with
    | some field => do
      let record ← field.read d record
      readFields fields (pending.filter fun f => !f.names.contains k) record ms
    | none =>
      if fields.any (·.names.contains k) then .error .misshapen
      else readFields fields pending record ms

def readInOrder : List (RecordField σ) → σ → List Document → Except Fault (List (RecordField σ) × σ)
  | field :: fields, record, d :: ds => do readInOrder fields (← field.read d record) ds
  | fields, record, [] => .ok (fields, record)
  | [], _, _ :: _ => .error .malformed

/-- A record, from an object or from the list of its fields in order. Fields that are not there
keep what `start` holds. A field may come once, and an unknown name is passed over. -/
def toRecord (fields : List (RecordField σ)) (start : σ) : Reader σ
  | .object members closed => do
    let (absent, record) ← readFields fields fields start members
    if !closed then throw .malformed
    else if absent.any (·.required) then throw .misshapen
    else return record
  | .array items closed => do
    let (absent, record) ← readInOrder fields start items
    if !closed then throw .malformed
    else if absent.any (·.required) then throw .misshapen
    else return record
  | d => .error d.fault

/-- The documents of an object's members without the one named `tag`, and the reader that the tag
chooses. All members are read through, so a break among them comes before any other fault. -/
def splitTag (tag : String) (choose : String → Option (Reader α)) :
    Option (Reader α) → List (Option String × Document) → List (Option String × Document) →
      Except Fault (Option (Reader α) × List (Option String × Document))
  | found, others, [] => .ok (found, others)
  | _, _, (none, _) :: _ => .error .malformed
  | found, others, (some k, d) :: ms =>
    if k = tag then
      if found.isSome then .error .misshapen
      else do
        let reader ← toNamed choose d
        splitTag tag choose (some reader) others ms
    else do
      let _ ← toValue d
      splitTag tag choose found (others ++ [(some k, d)]) ms

def readHeld (read : Reader α) : Reader α := fun d => (read d).mapError fun _ => .misshapen

/-- One of some alternatives that a member named `tag`, or the first item of a list, tells apart.
The rest is held until the end, so the tag may stand anywhere among the members. -/
def toTagged (tag : String) (choose : String → Option (Reader α)) : Reader α
  | .object members closed => do
    let (found, others) ← splitTag tag choose none [] members
    if !closed then throw .malformed
    else
      match found with
      | some read => readHeld read (.object others true)
      | none => throw .misshapen
  | .array (d :: ds) closed => do
    let read ← toNamed choose d
    let _ ← toValues ds
    if closed then readHeld read (.array ds true) else throw .malformed
  | .array [] false => .error .malformed
  | d => .error d.fault

end Document

def readWhole (read : Reader α) (s : String) : Except Fault α := do
  let (document, ended) := Document.ofText s
  let a ← read document
  if ended then return a else throw .malformed

/-- Reads the value that a text starts with, whatever follows it. -/
def readLeading (read : Reader α) (s : String) : Except Fault α := read (Document.ofText s).1

namespace Document

def field (name : String) (read : Reader α) (set : α → σ → σ) : RecordField σ :=
  ⟨[name], true, fun d r => do return set (← read d) r⟩

def optionalField (name : String) (read : Reader α) (set : α → σ → σ) : RecordField σ :=
  ⟨[name], false, fun d r => do return set (← read d) r⟩

end Document
end TablePlanner.Json
