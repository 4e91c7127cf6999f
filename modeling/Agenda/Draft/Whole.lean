import Agenda.Field
import Agenda.Text.Numeral

/-!
# Whole numbers in fields

A field for a whole number takes the number itself, a truth value, a number with a point that has
no fraction, and a text.  The text is a numeral in plain digits with a sign, padding and single
underscores, and perhaps a point with zeros behind it.  The padding is made of zeros and
underscores and begins with a zero; where it ends, the numeral may begin with a hyphen of its own,
unless a hyphen stood in front.
-/

namespace Agenda

namespace Draft

/-- The outcome of reading one field. -/
abbrev Reading (α : Type) := Except Field.Refusal α

/-- Reads a text as a string; one that cannot be written is refused. -/
def readString {α : Type} (read : String → Reading α) (t : Text) : Reading α :=
  match t.string? with
  | some s => read s
  | none => .error .unwritable

namespace Whole

/-- A plain digit that is not zero. -/
def isLeading (c : Char) : Bool := '1' ≤ c && c ≤ '9'

/-- What is left behind a zero and the padding that follows it: a numeral, or the last character
of the padding if a point or nothing follows. -/
def afterZero (last : Char) : List Char → Option (List Char)
  | [] => some [last]
  | '.' :: rest => some (last :: '.' :: rest)
  | c :: rest =>
    if c == '0' || c == '_' then afterZero c rest
    else if isLeading c || c == '-' then some (c :: rest)
    else none

/-- A text without its padding; `none` if it begins like no numeral. -/
def withoutPadding : List Char → Option (List Char)
  | '0' :: rest => afterZero '0' rest
  | c :: rest => if isLeading c || c == '-' then some (c :: rest) else none
  | [] => none

/-- A text without a point that only zeros follow, at least one of them. -/
def withoutZeroFraction (cs : List Char) : List Char :=
  match cs.dropWhile (· != '.') with
  | _ :: c :: rest =>
    if (c :: rest).all (· == '0') then cs.takeWhile (· != '.') else cs
  | _ => cs

/-- Underscores stand at the ends of a text or next to each other. -/
def hasLooseUnderscore : List Char → Bool
  | [] => false
  | ['_'] => true
  | '_' :: '_' :: _ => true
  | _ :: rest => hasLooseUnderscore rest

/-- A text without its underscores, if each of them stands between two other characters. -/
def withoutUnderscores (cs : List Char) : List Char :=
  if cs.head? == some '_' || hasLooseUnderscore cs then cs else cs.filter (· != '_')

/-- The digits of a numeral as it must be in the end: zero alone, or digits that begin with
another one.  A numeral with too many characters is refused before what follows it is looked at. -/
def readDigits (sign : Nat) (cs : List Char) : Reading Nat :=
  let digits := cs.takeWhile fun c => (Text.plainDigit? c).isSome
  let rest := cs.dropWhile fun c => (Text.plainDigit? c).isSome
  match digits with
  | [] => .error .unreadableWhole
  | '0' :: more => if more.isEmpty && rest.isEmpty then .ok 0 else .error .unreadableWhole
  | _ =>
    if sign + digits.length > Text.Numeral.maxDigits then .error .tooLarge
    else if rest.isEmpty then
      .ok (Text.Numeral.ofDigits 10 (digits.filterMap Text.plainDigit?))
    else .error .unreadableWhole

/-- A numeral, which may have a hyphen in front. -/
def readNumeral : List Char → Reading Int
  | '-' :: cs => (readDigits 1 cs).map (Text.Numeral.signed true)
  | cs => (readDigits 0 cs).map (Text.Numeral.signed false)

/-- What follows a plus sign; `none` if that is a hyphen. -/
def withoutPlus : List Char → Option (List Char)
  | '+' :: '-' :: _ => none
  | '+' :: cs => some cs
  | cs => some cs

/-- A text as a numeral without white space, padding, underscores and zeros behind a point. -/
def bare? (cs : List Char) : Option (List Char) := do
  let body ← withoutPlus (Text.stripEnds Text.isWhite cs)
  match body with
  | '-' :: rest => return '-' :: withoutUnderscores (withoutZeroFraction (← withoutPadding rest))
  | _ => return withoutUnderscores (withoutZeroFraction (← withoutPadding body))

def ofText (s : String) : Reading Int :=
  match bare? s.toList with
  | some cs => readNumeral cs
  | none => .error .unreadableWhole

/-- A number with a point that has no fraction and fits 64 bits. -/
def ofFloat (x : Float) : Reading Int :=
  if x.isNaN || x.isInf then .error .notFinite
  else if x.floor != x then .error .fractional
  else if -9223372036854775808.0 < x && x < 9223372036854775808.0 then .ok x.toInt64.toInt
  else .error .tooLarge

end Whole

/-- A whole number; truth values count as 0 and 1. -/
def readWhole : Value → Reading Int
  | .plain (.whole n) => .ok n
  | .plain (.flag b) => .ok (if b then 1 else 0)
  | .plain (.text t) => readString Whole.ofText t
  | .real x => Whole.ofFloat x
  | _ => .error .notWhole

end Draft

end Agenda
