import TablePlanner.Json.Value

/-! A document keeps what a value drops: repeated keys, literals and escapes that name nothing, and
the place where a text stops being JSON. Nothing follows that break, so a reader that walks a
document in order meets each fault where it stands in the text. -/
namespace TablePlanner.Json

inductive Document where
  | null
  | bool (b : Bool)
  | number (literal : String)
  /-- A quoted text, `none` if its escapes name half of a surrogate pair. -/
  | string (content : Option String)
  | array (items : List Document) (closed : Bool)
  /-- Members have the name `none` where its escapes name half of a surrogate pair. -/
  | object (members : List (Option String × Document)) (closed : Bool)
  | broken
deriving Inhabited

namespace Document

def isSpace (c : Char) : Bool := c == ' ' || c == '\t' || c == '\n' || c == '\r'

def skipSpace (cs : List Char) : List Char := cs.dropWhile isSpace

def hexValue? (c : Char) : Option Nat :=
  if '0' ≤ c ∧ c ≤ '9' then some (c.toNat - 48)
  else if 'a' ≤ c ∧ c ≤ 'f' then some (c.toNat - 87)
  else if 'A' ≤ c ∧ c ≤ 'F' then some (c.toNat - 55)
  else none

def hexUnit? (a b c d : Char) : Option Nat := do
  return ((← hexValue? a) * 16 + (← hexValue? b)) * 256 + (← hexValue? c) * 16 + (← hexValue? d)

def shortEscape? : Char → Option Char
  | '"' => some '"'
  | '\\' => some '\\'
  | '/' => some '/'
  | 'b' => some '\x08'
  | 't' => some '\t'
  | 'n' => some '\n'
  | 'f' => some '\x0c'
  | 'r' => some '\r'
  | _ => none

/-- One element of a quoted text: a character, or an escaped unit of 16 bits. -/
inductive Piece where
  | char (c : Char)
  | unit (n : Nat)
deriving DecidableEq, Repr

def readPieces : List Char → Option (List Piece × List Char)
  | [] => none
  | '\\' :: 'u' :: a :: b :: c :: d :: rest => do
    let n ← hexUnit? a b c d
    let (ps, rest) ← readPieces rest
    return (.unit n :: ps, rest)
  | '\\' :: e :: rest => do
    let c ← shortEscape? e
    let (ps, rest) ← readPieces rest
    return (.char c :: ps, rest)
  | c :: rest =>
    if c = '"' then some ([], rest)
    else if c = '\\' ∨ c.toNat < 0x20 then none
    else do
      let (ps, rest) ← readPieces rest
      return (.char c :: ps, rest)

/-- The text that pieces spell. A high surrogate and the low one after it make one character. -/
def joinPieces : List Piece → Option (List Char)
  | [] => some []
  | .char c :: ps => (c :: ·) <$> joinPieces ps
  | .unit n :: .unit m :: ps =>
    if 0xd800 ≤ n ∧ n < 0xdc00 then
      if 0xdc00 ≤ m ∧ m < 0xe000 then
        (Char.ofNat (0x10000 + (n - 0xd800) * 0x400 + (m - 0xdc00)) :: ·) <$> joinPieces ps
      else none
    else if 0xdc00 ≤ n ∧ n < 0xe000 then none
    else (Char.ofNat n :: ·) <$> joinPieces (.unit m :: ps)
  | .unit n :: ps =>
    if 0xd800 ≤ n ∧ n < 0xe000 then none else (Char.ofNat n :: ·) <$> joinPieces ps

def readString (cs : List Char) : Option (Option String × List Char) :=
  (readPieces cs).map fun (ps, rest) => ((joinPieces ps).map String.ofList, rest)

def readDigits (cs : List Char) : Option (List Char × List Char) :=
  let digits := cs.takeWhile Char.isDigit
  if digits.isEmpty then none else some (digits, cs.dropWhile Char.isDigit)

/-- The part of a number before its fraction. A leading zero stands alone. -/
def readWhole : List Char → Option (List Char × List Char)
  | '0' :: c :: rest => if c.isDigit then none else some (['0'], c :: rest)
  | cs => readDigits cs

def readFraction : List Char → Option (List Char × List Char)
  | '.' :: rest => (readDigits rest).map fun (ds, rest) => ('.' :: ds, rest)
  | cs => some ([], cs)

def readExponent : List Char → Option (List Char × List Char)
  | [] => some ([], [])
  | e :: rest =>
    if e = 'e' ∨ e = 'E' then
      match rest with
      | [] => none
      | s :: after =>
        if s = '+' ∨ s = '-' then (readDigits after).map fun (ds, rest) => (e :: s :: ds, rest)
        else (readDigits rest).map fun (ds, rest) => (e :: ds, rest)
    else some ([], e :: rest)

def readNumber (cs : List Char) : Option (List Char × List Char) := do
  let sign := cs.takeWhile (· == '-') |>.take 1
  let (whole, rest) ← readWhole (cs.drop sign.length)
  let (fraction, rest) ← readFraction rest
  let (exponent, rest) ← readExponent rest
  return (sign ++ whole ++ fraction ++ exponent, rest)

def dropWord (word : List Char) (cs : List Char) : Option (List Char) :=
  if word.isPrefixOf cs then some (cs.drop word.length) else none

def readScalar (cs : List Char) : Document × List Char :=
  match dropWord ['n', 'u', 'l', 'l'] cs with
  | some rest => (.null, rest)
  | none =>
    match dropWord ['t', 'r', 'u', 'e'] cs with
    | some rest => (.bool true, rest)
    | none =>
      match dropWord ['f', 'a', 'l', 's', 'e'] cs with
      | some rest => (.bool false, rest)
      | none =>
        match readNumber cs with
        | some (literal, rest) => (.number (String.ofList literal), rest)
        | none => (.broken, [])

mutual

/-- The document at the start of a text and the text after it, which is empty after a break.
`depth` bounds the nesting of arrays and objects, `fuel` the number of steps. -/
def readValue : Nat → Nat → List Char → Document × List Char
  | 0, _, _ => (.broken, [])
  | fuel + 1, depth, cs =>
    match skipSpace cs with
    | [] => (.broken, [])
    | '"' :: rest =>
      match readString rest with
      | some (content, rest) => (.string content, rest)
      | none => (.broken, [])
    | '[' :: rest =>
      if depth = 0 then (.broken, [])
      else
        match skipSpace rest with
        | ']' :: rest => (.array [] true, rest)
        | rest =>
          let (items, closed, rest) := readItems fuel (depth - 1) rest
          (.array items closed, rest)
    | '\x7b' :: rest =>
      if depth = 0 then (.broken, [])
      else
        match skipSpace rest with
        | '\x7d' :: rest => (.object [] true, rest)
        | rest =>
          let (members, closed, rest) := readMembers fuel (depth - 1) rest
          (.object members closed, rest)
    | cs => readScalar cs

def readItems : Nat → Nat → List Char → List Document × Bool × List Char
  | 0, _, _ => ([], false, [])
  | fuel + 1, depth, cs =>
    let (item, rest) := readValue fuel depth cs
    match skipSpace rest with
    | ']' :: rest => ([item], true, rest)
    | ',' :: rest =>
      let (items, closed, rest) := readItems fuel depth rest
      (item :: items, closed, rest)
    | _ => ([item], false, [])

def readMembers : Nat → Nat → List Char → List (Option String × Document) × Bool × List Char
  | 0, _, _ => ([], false, [])
  | fuel + 1, depth, cs =>
    match skipSpace cs with
    | '"' :: rest =>
      match readString rest with
      | some (key, rest) =>
        match skipSpace rest with
        | ':' :: rest =>
          let (item, rest) := readValue fuel depth rest
          match skipSpace rest with
          | '\x7d' :: rest => ([(key, item)], true, rest)
          | ',' :: rest =>
            let (members, closed, rest) := readMembers fuel depth rest
            ((key, item) :: members, closed, rest)
          | _ => ([(key, item)], false, [])
        | _ => ([(key, .broken)], false, [])
      | none => ([], false, [])
    | _ => ([], false, [])

end

def maxDepth : Nat := 127

def readText (cs : List Char) : Document × List Char :=
  readValue (2 * cs.length + 2) maxDepth cs

/-- The document of a text and whether only white space follows it. -/
def ofText (s : String) : Document × Bool :=
  let (document, rest) := readText s.toList
  (document, (skipSpace rest).isEmpty)

mutual

def ofValue : Value → Document
  | .null => .null
  | .bool b => .bool b
  | .number n => .number (String.ofList n.text)
  | .string s => .string (some s)
  | .array vs => .array (ofValues vs) true
  | .object ms => .object (ofMembers ms) true

def ofValues : List Value → List Document
  | [] => []
  | v :: vs => ofValue v :: ofValues vs

def ofMembers : List (String × Value) → List (Option String × Document)
  | [] => []
  | (k, v) :: ms => (some k, ofValue v) :: ofMembers ms

end

end Document
end TablePlanner.Json
