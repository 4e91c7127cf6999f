import Agenda.Text.Numeral
import Agenda.Text.Utf8

/-!
# Percent escapes

Inside an address, `%` and two hexadecimal digits stand for a byte.  Reading takes everything else
as it is, a percent sign without two digits included.  Bytes that stand next to each other are one
text, but no character begins in an escape and ends in a character beyond the plain 128: such a
character is never part of what surrounds it.
-/

namespace Agenda.Text

namespace Percent

/-- A plain character: one of the first 128. -/
def isPlain (c : Char) : Bool := c.toNat < 128

/-- The bytes that plain characters stand for. -/
def bytes : List Char → List Nat
  | '%' :: a :: b :: rest =>
    match plainHexDigit? a, plainHexDigit? b with
    | some x, some y => (16 * x + y) :: bytes rest
    | _, _ => '%'.toNat :: bytes (a :: b :: rest)
  | c :: rest => c.toNat :: bytes rest
  | [] => []

/-- Reads a text behind a run of plain characters, the last of them first. -/
def decodeFrom (run : List Char) : List Char → List Char
  | [] => Utf8.decode (bytes run.reverse)
  | c :: rest =>
    if isPlain c then decodeFrom (c :: run) rest
    else Utf8.decode (bytes run.reverse) ++ c :: decodeFrom [] rest

def decode (s : String) : String := String.ofList (decodeFrom [] s.toList)

/-- Letters, digits and four marks are never escaped. -/
def isSafe (c : Char) : Bool := c.isAlphanum || c == '_' || c == '.' || c == '-' || c == '~'

def escape (b : Nat) : List Char := '%' :: (hexDigits 2 b).map Char.toUpper

/-- Writes a text with escapes for all characters but those that are safe, or safe here. -/
def encode (also : List Char) (s : String) : String :=
  String.ofList (s.toList.flatMap fun c =>
    if isSafe c || also.contains c then [c] else (Utf8.encode c).flatMap escape)

end Percent

end Agenda.Text
