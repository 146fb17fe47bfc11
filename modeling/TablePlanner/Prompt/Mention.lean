import TablePlanner.Json.Number
import TablePlanner.Prompt.Vocabulary
import TablePlanner.Text.Lowercase

/-! A Latin letter or a digit at either end of a word must not go on into a neighbour of its own
kind, so `top` is not found in `laptop` nor `5개` in `15개`; Hangul matches anywhere. -/
namespace TablePlanner.Prompt

/-- Whether two neighbouring characters belong to one Latin word or one number. -/
def joins (left right : Option Char) : Bool :=
  match left, right with
  | some l, some r => (l.isAlpha && r.isAlpha) || (l.isDigit && r.isDigit)
  | _, _ => false

/-- Looks for a word from behind the character `before` on, when `skip` more characters belong to
the occurrence before. -/
def scan (word : List Char) (skip : Nat) (before : Option Char) : List Char → Bool
  | [] => false
  | c :: cs =>
    if skip = 0 ∧ word.isPrefixOf (c :: cs) = true then
      (!joins before word.head? && !joins word.getLast? (cs.drop (word.length - 1)).head?) ||
        scan word (word.length - 1) (some c) cs
    else scan word (skip - 1) (some c) cs

def mentions (text : List Char) (word : String) : Bool :=
  !word.isEmpty && scan word.toList 0 none text

def mentionsAny (text : List Char) (words : List String) : Bool := words.any (mentions text)

def firstValue? (text : List Char) (values : List (String × String)) : Option String :=
  (values.find? fun p => mentions text p.1).map (·.2)

def countText (n : Int) : String := String.ofList (Json.Number.intText n)

def asksFor (text : List Char) (n : Int) : Bool :=
  (Vocabulary.countSuffixes.any fun suffix => mentions text (countText n ++ suffix)) ||
    Vocabulary.countLeads.any fun lead => mentions text (lead ++ countText n)

def requestedCount? (text : List Char) (candidates : List Int) : Option Int :=
  candidates.find? (asksFor text)

end TablePlanner.Prompt
