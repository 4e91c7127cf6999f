import Agenda.Text.Basic
import Agenda.Text.Printable

/-!
# Quoted texts

How a message shows a text that came from outside: between quotes, with escapes, so that every
text has one visible form on one line.  The apostrophe quotes, unless the text holds an apostrophe
and no quotation mark.  The backslash and the chosen quote are escaped by a backslash; tab, line
feed and carriage return have escapes of their own; every other code point that does not print is
written by its number in hexadecimal, with two, four or eight digits.  So a quoted text is a string,
even if the text is none.
-/

namespace Agenda.Text

/-- The digit of a value below sixteen, in lower case. -/
def hexDigit (d : Nat) : Char :=
  Char.ofNat (if d < 10 then 48 + d else 87 + d)

/-- The last `width` hexadecimal digits of a number, the highest first. -/
def hexDigits : Nat → Nat → List Char
  | 0, _ => []
  | width + 1, n => hexDigits width (n / 16) ++ [hexDigit (n % 16)]

namespace Quoted

/-- The quote that surrounds a text. -/
def quoteFor (ps : List Point) : Char :=
  if ps.contains (.char '\'') && !ps.contains (.char '"') then '"' else '\''

/-- One character inside quotes. -/
def escapeChar (quote c : Char) : List Char :=
  if c == quote || c == '\\' then ['\\', c]
  else if c == '\t' then ['\\', 't']
  else if c == '\n' then ['\\', 'n']
  else if c == '\r' then ['\\', 'r']
  else if isPrintable c then [c]
  else if c.toNat < 0x100 then '\\' :: 'x' :: hexDigits 2 c.toNat
  else if c.toNat < 0x10000 then '\\' :: 'u' :: hexDigits 4 c.toNat
  else '\\' :: 'U' :: hexDigits 8 c.toNat

/-- A surrogate as an escape. -/
def escapeHalf (n : Fin 2048) : List Char :=
  '\\' :: 'u' :: hexDigits 4 (Point.half n).toNat

/-- One code point inside quotes. -/
def escape (quote : Char) : Point → List Char
  | .char c => escapeChar quote c
  | .half n => escapeHalf n

end Quoted

def quoted (t : Text) : String :=
  let quote := Quoted.quoteFor t.points
  String.ofList (quote :: t.points.flatMap (Quoted.escape quote) ++ [quote])

/-- A text with its surrogates escaped and nothing else. -/
def escaped (t : Text) : String :=
  String.ofList (t.points.flatMap fun
    | .char c => [c]
    | .half n => Quoted.escapeHalf n)

/-- Why a text cannot be written: the first surrogates in it, and where they stand. -/
def unwritableMessage (t : Text) : String :=
  let place := (t.points.takeWhile Point.isChar).length
  let halves := (t.points.dropWhile Point.isChar).takeWhile (!·.isChar)
  let which := match halves with
    | [_] => s!"character {quoted ⟨halves⟩} in position {place}"
    | _ => s!"characters in position {place}-{place + halves.length - 1}"
  s!"'utf-8' codec can't encode {which}: surrogates not allowed"

/-- A number of a given width has that many digits. -/
@[simp] theorem length_hexDigits (width n : Nat) : (hexDigits width n).length = width := by
  induction width generalizing n with
  | zero => rfl
  | succ w ih => simp [hexDigits, ih]

end Agenda.Text
