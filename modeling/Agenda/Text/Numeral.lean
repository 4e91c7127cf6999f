import Agenda.Text.Blank
import Agenda.Text.Quoted

/-!
# Numerals

Whole numbers as people and programs write them: surrounded by white space, with a sign, in the
decimal digits of any script, and with single underscores between digits.  Base sixteen also
takes the marker `0x`.  A decimal numeral of more than 4300 digits is refused, and so is any text
that begins with so many: the digits are counted before what follows them is looked at.
-/

namespace Agenda.Text

/-- The zeros of all scripts; the nine digits after a zero follow it. -/
def decimalZeros : List Nat :=
  [
    0x30, 0x660, 0x6f0, 0x7c0, 0x966, 0x9e6, 0xa66, 0xae6, 0xb66, 0xbe6, 0xc66, 0xce6, 0xd66,
    0xde6, 0xe50, 0xed0, 0xf20, 0x1040, 0x1090, 0x17e0, 0x1810, 0x1946, 0x19d0, 0x1a80, 0x1a90,
    0x1b50, 0x1bb0, 0x1c40, 0x1c50, 0xa620, 0xa8d0, 0xa900, 0xa9d0, 0xa9f0, 0xaa50, 0xabf0,
    0xff10, 0x104a0, 0x10d30, 0x11066, 0x110f0, 0x11136, 0x111d0, 0x112f0, 0x11450, 0x114d0,
    0x11650, 0x116c0, 0x11730, 0x118e0, 0x11950, 0x11c50, 0x11d50, 0x11da0, 0x16a60, 0x16ac0,
    0x16b50, 0x1d7ce, 0x1d7d8, 0x1d7e2, 0x1d7ec, 0x1d7f6, 0x1e140, 0x1e2f0, 0x1e950, 0x1fbf0]

/-- The value of a decimal digit of any script. -/
def decimalDigit? (c : Char) : Option Nat :=
  (decimalZeros.find? fun z => z ≤ c.toNat && c.toNat < z + 10).map (c.toNat - ·)

/-- The value of a plain decimal digit, `0` to `9`. -/
def plainDigit? (c : Char) : Option Nat :=
  if 48 ≤ c.toNat && c.toNat ≤ 57 then some (c.toNat - 48) else none

/-- The value of a plain hexadecimal digit, in either case. -/
def plainHexDigit? (c : Char) : Option Nat :=
  if 48 ≤ c.toNat && c.toNat ≤ 57 then some (c.toNat - 48)
  else if 97 ≤ c.toNat && c.toNat ≤ 102 then some (c.toNat - 87)
  else if 65 ≤ c.toNat && c.toNat ≤ 70 then some (c.toNat - 55)
  else none

/-- The value of a hexadecimal digit: a letter, or a decimal digit of any script. -/
def hexDigit? (c : Char) : Option Nat :=
  (plainHexDigit? c).orElse fun _ => decimalDigit? c

namespace Numeral

/-- At least one digit, with single underscores allowed between two digits. -/
def digits? (digit? : Char → Option Nat) : List Char → Option (List Nat)
  | [] => none
  | [c] => (digit? c).map ([·])
  | c :: '_' :: rest => do
    let d ← digit? c
    let ds ← digits? digit? rest
    return d :: ds
  | c :: rest => do
    let d ← digit? c
    let ds ← digits? digit? rest
    return d :: ds

/-- The number written by digits in a base, the highest first. -/
def ofDigits (base : Nat) (ds : List Nat) : Nat :=
  ds.foldl (fun n d => base * n + d) 0

/-- A sign and what follows it; no sign is a plus. -/
def splitSign : List Char → Bool × List Char
  | '-' :: rest => (true, rest)
  | '+' :: rest => (false, rest)
  | rest => (false, rest)

/-- The number with the sign that was read. -/
def signed (negative : Bool) (n : Nat) : Int :=
  if negative then -(n : Int) else n

/-- What follows the marker of base sixteen: a zero of any script and an `x` in either case.  One
underscore may stand behind the marker. -/
def dropHexMarker : List Char → List Char
  | zero :: x :: rest =>
    if decimalDigit? zero == some 0 && (x == 'x' || x == 'X') then
      match rest with
      | '_' :: digits => digits
      | digits => digits
    else zero :: x :: rest
  | cs => cs

/-- The most digits that a decimal numeral may have. -/
def maxDigits : Nat := 4300

/-- Why a text is no decimal numeral. -/
inductive Fault
  /-- The text is no numeral. -/
  | malformed
  /-- The text begins with this many digits, which is too many. -/
  | tooLong (digits : Nat)
  deriving DecidableEq, Repr

/-- What is wrong with a text, in words; of a malformed text the beginning is shown. -/
def Fault.message (s : String) : Fault → String
  | .malformed =>
    "invalid literal for int() with base 10: " ++ String.ofList ((quoted s).toList.take 200)
  | .tooLong digits =>
    s!"Exceeds the limit ({maxDigits} digits) for integer string conversion: " ++
      s!"value has {digits} digits; use sys.set_int_max_str_digits() to increase the limit"

end Numeral

open Numeral

def readInteger (s : String) : Except Numeral.Fault Int :=
  let (negative, body) := splitSign (stripEnds isWhite s.toList)
  let inNumeral (c : Char) := c == '_' || (decimalDigit? c).isSome
  match digits? decimalDigit? (body.takeWhile inNumeral) with
  | none => .error .malformed
  | some ds =>
    if ds.length > maxDigits then .error (.tooLong ds.length)
    else if (body.dropWhile inNumeral).isEmpty then .ok (signed negative (ofDigits 10 ds))
    else .error .malformed

def readHex? (cs : List Char) : Option Int :=
  let (negative, body) := splitSign (stripEnds isWhite cs)
  (digits? hexDigit? (dropHexMarker body)).map fun ds => signed negative (ofDigits 16 ds)

end Agenda.Text
