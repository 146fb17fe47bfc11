import TablePlanner.Prompt.Vocabulary
import TablePlanner.Text.Blank
import TablePlanner.Text.Lowercase
import TablePlanner.Text.Search

namespace TablePlanner.Prompt

structure ValidityRules where
  minLength : Nat
  /-- The length of a run of one character that counts as noise; zero for none. -/
  minRepeat : Nat
deriving DecidableEq, Repr

def ValidityRules.standard : ValidityRules := ⟨2, 4⟩

inductive Rejection where
  | tooShort
  | jamoOnly
  | repeatedCharacter
deriving DecidableEq, Repr

def Rejection.message : Rejection → String
  | tooShort => "요청이 너무 짧습니다. 원하는 변환을 조금 더 구체적으로 입력해주세요."
  | jamoOnly => "의미를 알 수 없는 자음/모음만 입력되었습니다."
  | repeatedCharacter => "같은 문자가 반복된 입력은 처리할 수 없습니다."

/-- Whether the lowercased text holds an intent word, inside other words too. -/
def holdsIntent (text : List Char) : Bool :=
  let lowered := Text.lower text
  Vocabulary.intentTokens.any fun token => Text.occurs token.toList lowered

def isJamo (c : Char) : Bool := 0x3131 ≤ c.toNat && c.toNat ≤ 0x318e

def isJamoNoise (text : List Char) : Bool :=
  let letters := text.filter (!Text.isBlank ·)
  !letters.isEmpty && letters.all isJamo

/-- Whether a text that follows a run of `run` times `before` completes a run of `length`. -/
def completesRun (length : Nat) (before : Option Char) (run : Nat) : List Char → Bool
  | [] => false
  | c :: cs =>
    let run := if before = some c then run + 1 else 1
    length ≤ run || completesRun length (some c) run cs

def hasRepeatedRun (length : Nat) (text : List Char) : Bool :=
  length != 0 && completesRun length none 0 text

def rejection? (rules : ValidityRules) (prompt : String) : Option Rejection :=
  let text := Text.trim prompt.toList
  if text.length < rules.minLength then some .tooShort
  else if holdsIntent text then none
  else if isJamoNoise text then some .jamoOnly
  else if hasRepeatedRun rules.minRepeat text then some .repeatedCharacter
  else none

end TablePlanner.Prompt
