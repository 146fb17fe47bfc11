import TablePlanner.Json.Document

/-! A settings file is JSON that is also read by lines. Only printable characters stand in it, a
name shares a line with its colon, and no tab starts a line outside all brackets. The lines of a
quoted text are folded: blanks around a break do not count, a single break is a space, of more in a
row all but the first are kept. -/
namespace TablePlanner.SettingsFile
open Json Document

def isPrintable (c : Char) : Bool :=
  let n := c.toNat
  n == 9 || n == 10 || n == 13 || (0x20 ≤ n && n ≤ 0x7e) || n == 0x85 ||
    (0xa0 ≤ n && n ≤ 0xfffd) || 0x10000 ≤ n

/-- A next line, which becomes a space where it is folded. -/
def nextLine : Char := '\u0085'

def isBreak (c : Char) : Bool := c == nextLine || c == '\u2028' || c == '\u2029'

def splitLines : List Piece → List Piece × List (Char × List Piece)
  | [] => ([], [])
  | .char c :: ps =>
    let (line, later) := splitLines ps
    if isBreak c then ([], (c, line) :: later) else (.char c :: line, later)
  | p :: ps =>
    let (line, later) := splitLines ps
    (p :: line, later)

def isSpacePiece (p : Piece) : Bool := p == .char ' '

def trimEnd (line : List Piece) : List Piece := (line.reverse.dropWhile isSpacePiece).reverse

/-- Whether a line starts with a word of three dashes or three dots, which would end the file. A
word goes on up to a blank or the end of its line, and the last line has no end but its quote. -/
def endsFile (isLast : Bool) : List Piece → Bool
  | a :: b :: c :: rest =>
    (a == .char '-' || a == .char '.') && a == b && b == c &&
      match rest with
      | [] => !isLast
      | p :: _ => isSpacePiece p
  | _ => false

def keptBreak (c : Char) : Piece := if c = nextLine then .char '\n' else .char c

def joint : List Char → List Piece
  | [] => []
  | b :: bs =>
    if b = nextLine then (if bs.isEmpty then [.char ' '] else bs.map keptBreak)
    else (b :: bs).map keptBreak

/-- The later lines of a quoted text in one, after the breaks since the last line that is not
blank. -/
def joinLines : List Char → List (Char × List Piece) → Option (List Piece)
  | breaks, [] => some (joint breaks)
  | breaks, (b, line) :: later =>
    if endsFile later.isEmpty line then none
    else
      let text := line.dropWhile isSpacePiece
      if text.isEmpty then joinLines (breaks ++ [b]) later
      else do
        let rest ← joinLines [] later
        return joint (breaks ++ [b]) ++ (if later.isEmpty then text else trimEnd text) ++ rest

def foldLines (ps : List Piece) : Option (List Piece) :=
  match splitLines ps with
  | (line, []) => some line
  | (line, later) => (trimEnd line ++ ·) <$> joinLines [] later

/-- A part of a file: a quoted text with the number of characters it takes, quotes and escapes
included, or a character outside of quotes. -/
inductive Part where
  | quoted (pieces : List Piece) (width : Nat)
  | plain (c : Char)
deriving DecidableEq, Repr

/-- The parts of a text with closed quotes. The length of the text is fuel enough. -/
def readParts : Nat → List Char → Option (List Part)
  | _, [] => some []
  | 0, _ => none
  | fuel + 1, '"' :: cs => do
    let (pieces, rest) ← readPieces cs
    return .quoted pieces (cs.length + 1 - rest.length) :: (← readParts fuel rest)
  | fuel + 1, c :: cs => do return .plain c :: (← readParts fuel cs)

def parts? (cs : List Char) : Option (List Part) := readParts cs.length cs

def leadingSpace : List Part → List Char × Option Char
  | .plain c :: ps =>
    if isSpace c then
      let (cs, next) := leadingSpace ps
      (c :: cs, next)
    else ([], some c)
  | _ => ([], none)

/-- The greatest number of characters from the start of a name to its colon. -/
def maxNameWidth : Nat := 1024

def fitsLine (pieces : List Piece) (width : Nat) (space : List Char) : Bool :=
  (splitLines pieces).2.isEmpty && space.all (fun c => c == ' ' || c == '\t') &&
    width + space.length ≤ maxNameWidth

def namesFit : List Part → Bool
  | [] => true
  | .plain _ :: ps => namesFit ps
  | .quoted pieces width :: ps =>
    (match leadingSpace ps with
      | (space, some ':') => fitsLine pieces width space
      | _ => true) && namesFit ps

/-- Whether tabs before and after all else stand behind something on their line. -/
def tabsFit (cs : List Char) : Bool :=
  let before := cs.takeWhile isSpace
  let after := (cs.reverse.takeWhile isSpace).reverse
  !before.contains '\t' && !(after.dropWhile fun c => c == ' ' || c == '\t').contains '\t'

def isSurrogate : Piece → Bool
  | .unit n => 0xd800 ≤ n && n < 0xe000
  | .char _ => false

/-- The JSON text of a part. Half of a surrogate pair may not be escaped, not even beside the
other half. -/
def Part.text? : Part → Option (List Char)
  | .plain c => some [c]
  | .quoted pieces _ =>
    if pieces.any isSurrogate then none
    else do return Value.quoted (String.ofList (← joinPieces (← foldLines pieces)))

def jsonText? (cs : List Char) : Option String := do
  let parts ← parts? cs
  if cs.all isPrintable && tabsFit cs && namesFit parts then
    return String.ofList (← parts.mapM Part.text?).flatten
  else none

end TablePlanner.SettingsFile
