import Agenda.Text.Numeral

/-!
# Decimal fractions

Which texts stand for a number with a point: a sign, digits of any script with a point before,
between or behind them, and a power of ten behind an `e`; or a word for a number that is not
finite.  White space may surround the text, and single underscores may stand between digits.
-/

namespace Agenda.Text

namespace Decimal

/-- A decimal digit of any script. -/
def isDigit (c : Char) : Bool := (decimalDigit? c).isSome

/-- Each underscore stands between two digits; `after` tells whether a digit stands in front. -/
def underscoresBetween (after : Bool) : List Char → Bool
  | [] => true
  | '_' :: rest => after && rest.head?.any isDigit && underscoresBetween false rest
  | c :: rest => underscoresBetween (isDigit c) rest

/-- What follows a sign; a sign need not be there. -/
def withoutSign : List Char → List Char
  | '+' :: rest => rest
  | '-' :: rest => rest
  | rest => rest

/-- A power of ten, or nothing. -/
def isPower : List Char → Bool
  | [] => true
  | c :: rest =>
    let digits := withoutSign rest
    (c == 'e' || c == 'E') && !digits.isEmpty && digits.all isDigit

/-- Digits with a point, and perhaps a power of ten. -/
def isPositional (cs : List Char) : Bool :=
  let whole := cs.takeWhile isDigit
  match cs.dropWhile isDigit with
  | '.' :: rest =>
    (!whole.isEmpty || rest.head?.any isDigit) && isPower (rest.dropWhile isDigit)
  | rest => !whole.isEmpty && isPower rest

/-- The words for numbers that are not finite. -/
def words : List String := ["inf", "infinity", "nan"]

end Decimal

open Decimal

/-- A text that stands for a number with a point. -/
def isDecimal (s : String) : Bool :=
  let cs := stripEnds isWhite s.toList
  let body := withoutSign (cs.filter (· != '_'))
  underscoresBetween false cs &&
    (isPositional body || words.contains (String.ofList (body.map Char.toLower)))

end Agenda.Text
