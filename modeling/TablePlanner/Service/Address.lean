namespace TablePlanner.Address

def hexDigit (n : Nat) : Char := if n < 10 then Char.ofNat (48 + n) else Char.ofNat (55 + n)

def hexValue? (c : Char) : Option Nat :=
  if '0' ≤ c ∧ c ≤ '9' then some (c.toNat - 48)
  else if 'a' ≤ c ∧ c ≤ 'f' then some (c.toNat - 87)
  else if 'A' ≤ c ∧ c ≤ 'F' then some (c.toNat - 55)
  else none

def isUnreserved (c : Char) : Bool :=
  c.isAlphanum || c == '-' || c == '.' || c == '_' || c == '~'

def encodeByte (b : UInt8) : List Char :=
  let c := Char.ofNat b.toNat
  if isUnreserved c then [c] else ['%', hexDigit (b.toNat / 16), hexDigit (b.toNat % 16)]

def encode (s : String) : String := String.ofList (s.toUTF8.toList.flatMap encodeByte)

/-- The bytes that a text stands for. A percent sign without two digits stands for itself. -/
def decodeBytes : List Char → List UInt8
  | '%' :: a :: b :: rest =>
    match hexValue? a, hexValue? b with
    | some m, some n => UInt8.ofNat (16 * m + n) :: decodeBytes rest
    | _, _ => '%'.toNat.toUInt8 :: decodeBytes (a :: b :: rest)
  | c :: rest => (String.singleton c).toUTF8.toList ++ decodeBytes rest
  | [] => []

def decode? (cs : List Char) : Option String := String.fromUTF8? ⟨(decodeBytes cs).toArray⟩

def decodeQuery? (cs : List Char) : Option String :=
  decode? (cs.map fun c => if c = '+' then ' ' else c)

def queryItems (cs : List Char) : List (List Char × List Char) :=
  let items := (cs.splitOn '&').filter (!·.isEmpty)
  items.map fun item => (item.takeWhile (· != '='), (item.dropWhile (· != '=')).drop 1)

def isSchemeChar (c : Char) : Bool :=
  c.isAlphanum || c == '+' || c == '-' || c == '.' || c == '~'

def afterScheme? (cs : List Char) : Option (List Char) :=
  match cs.dropWhile isSchemeChar with
  | ':' :: '/' :: '/' :: rest => some rest
  | _ => none

def splitQuery (cs : List Char) : List Char × List Char :=
  (cs.takeWhile (· != '?'), (cs.dropWhile (· != '?')).drop 1)

/-- The path and the query of an address without regard to its fragment. Behind a host an empty
path is the root; a host alone has no path. -/
def locate? (address : List Char) : Option (List Char × List Char) :=
  let cs := address.takeWhile (· != '#')
  if cs.head? = some '/' then some (splitQuery cs)
  else do
    let (path, query) := splitQuery ((← afterScheme? cs).dropWhile fun c => c != '/' && c != '?')
    return (if path.isEmpty then ['/'] else path, query)

end TablePlanner.Address
