import Agenda.Text.Numeral
import Agenda.Text.Quoted

/-!
# Identifiers

Projects and tasks are named by 128-bit identifiers.  Their one written form has 32 lower-case
hexadecimal digits in groups of eight, four, four, four and twelve.  Two readers take more than
that form: `read?` is the lenient one for text that people type, `readStrict?` knows exactly four
shapes.  That `read?` reads what `text` writes is what makes stored identifiers safe.
-/

namespace Agenda

/-- A 128-bit identifier. -/
structure Uuid where
  bits : BitVec 128
  deriving DecidableEq, Repr

namespace Uuid

instance : Inhabited Uuid := ⟨⟨0#128⟩⟩

/-- The identifier with a given number; a number of more than 128 bits is cut. -/
def ofNat (n : Nat) : Uuid := ⟨BitVec.ofNat 128 n⟩

def toNat (u : Uuid) : Nat := u.bits.toNat

/-- The written form, character by character. -/
def chars (u : Uuid) : List Char :=
  Text.hexDigits 8 (u.toNat >>> 96) ++ '-' :: Text.hexDigits 4 (u.toNat >>> 80) ++
    '-' :: Text.hexDigits 4 (u.toNat >>> 64) ++ '-' :: Text.hexDigits 4 (u.toNat >>> 48) ++
    '-' :: Text.hexDigits 12 u.toNat

/-- The written form. -/
def text (u : Uuid) : String := String.ofList u.chars

/-- The written form of an identifier that may be absent. -/
def textOrNone : Option Uuid → String
  | some u => u.text
  | none => "None"

/-! ### Reading -/

/-- A text without any occurrence of a word, searched from the left. -/
def removeWord (word cs : List Char) : List Char :=
  match cs with
  | [] => []
  | c :: rest =>
    if word.isPrefixOf (c :: rest) then removeWord word (rest.drop (word.length - 1))
    else c :: removeWord word rest
termination_by cs.length
decreasing_by
  all_goals simp only [List.length_cons, List.length_drop]; omega

/-- The lenient reader.  The words `urn:` and `uuid:`, braces at the ends and all hyphens are
dropped; the 32 characters that must be left are a numeral in base sixteen. -/
def read? (s : String) : Option Uuid :=
  let bare := removeWord "uuid:".toList (removeWord "urn:".toList s.toList)
  let digits := (Text.stripEnds (fun c => c == '{' || c == '}') bare).filter (· != '-')
  if digits.length = 32 then
    (Text.readHex? digits).bind fun n => if 0 ≤ n then some (ofNat n.toNat) else none
  else none

/-- The number written by hexadecimal digits alone. -/
def readDigits? (cs : List Char) : Option Nat :=
  (cs.mapM Text.plainHexDigit?).map (Text.Numeral.ofDigits 16)

/-- Hyphens at their places among 36 characters. -/
def readHyphenated? (cs : List Char) : Option Uuid :=
  let hyphen (i : Nat) := cs[i]? == some '-'
  if cs.length = 36 && hyphen 8 && hyphen 13 && hyphen 18 && hyphen 23 then
    (readDigits? (cs.take 8 ++ (cs.drop 9).take 4 ++ (cs.drop 14).take 4 ++
      (cs.drop 19).take 4 ++ cs.drop 24)).map ofNat
  else none

/-- The strict reader: 32 digits, or the hyphenated form, alone or in braces or behind
`urn:uuid:`. -/
def readStrict? (s : String) : Option Uuid :=
  let cs := s.toList
  if cs.length = 32 then (readDigits? cs).map ofNat
  else if cs.length = 38 && cs.head? == some '{' && cs.getLast? == some '}' then
    readHyphenated? (cs.drop 1).dropLast
  else if "urn:uuid:".toList.isPrefixOf cs then readHyphenated? (cs.drop 9)
  else readHyphenated? cs

end Uuid

end Agenda
