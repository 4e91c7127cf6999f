import Agenda.Text.Printable
import Agenda.Text.LetterCase.Table

/-!
# Letter case

The full case maps of texts.  A character may become several (`ß` is `SS` in upper case), and one
rule looks at the surroundings: a capital sigma at the end of a word becomes the final small
sigma.  Names of settings are compared in lower case, names of log levels in upper case.
-/

namespace Agenda.Text

namespace LetterCase

/-- The image of a code point under a map kept as runs, if the map moves it. -/
def shifted (runs : List CaseRun) (n : Nat) : Option Nat :=
  (runs.find? fun r => r.first ≤ n && n ≤ r.last && (n - r.first) % r.step == 0).map
    fun r => ((n : Int) + r.shift).toNat

/-- The image of a character under a case map: listed in full, else moved by a run, else kept. -/
def mapChar (long : List (Nat × List Nat)) (runs : List CaseRun) (c : Char) : List Char :=
  match long.lookup c.toNat with
  | some image => image.map Char.ofNat
  | none =>
    match shifted runs c.toNat with
    | some n => [Char.ofNat n]
    | none => [c]

/-- The nearest character that is not passed over has a case. -/
def nextIsCased (cs : List Char) : Bool :=
  match cs.dropWhile fun c => inRanges ignorableRanges c.toNat with
  | [] => false
  | c :: _ => inRanges casedRanges c.toNat

/-- The lower-case form of one character between what stands before it, nearest first, and what
stands behind it. -/
def lowerAt (before : List Char) (c : Char) (after : List Char) : List Char :=
  if c == 'Σ' then
    if nextIsCased before && !nextIsCased after then ['ς'] else ['σ']
  else mapChar lowerLong lowerRuns c

/-- The lower-case form of the rest of a text. -/
def lower.go (before : List Char) : List Char → List Char
  | [] => []
  | c :: after => lowerAt before c after ++ lower.go (c :: before) after

end LetterCase

def toUpper (s : String) : String :=
  String.ofList (s.toList.flatMap (LetterCase.mapChar LetterCase.upperLong LetterCase.upperRuns))

def toLower (s : String) : String :=
  String.ofList (LetterCase.lower.go [] s.toList)

end Agenda.Text
