/-!
# Blank characters

Two classes of blank characters, and strings cut at both ends.  `isBlank` is the class behind "a
name must not be blank" and behind every trimming of settings and status words; `isWhite` is the
narrower class that may surround a number: it leaves out the four information separators.
-/

namespace Agenda.Text

/-- A blank character: the white space of the character standard and the information separators
`001C` to `001F`. -/
def isBlank (c : Char) : Bool :=
  let n := c.toNat
  (9 ≤ n && n ≤ 13) || (0x1c ≤ n && n ≤ 0x20) || n == 0x85 || n == 0xa0 || n == 0x1680 ||
    (0x2000 ≤ n && n ≤ 0x200a) || n == 0x2028 || n == 0x2029 || n == 0x202f || n == 0x205f ||
    n == 0x3000

/-- White space: a blank character that is no information separator. -/
def isWhite (c : Char) : Bool :=
  isBlank c && !(0x1c ≤ c.toNat && c.toNat ≤ 0x1f)

/-- What is left once the characters of a class are cut from both ends. -/
def stripEnds (p : Char → Bool) (cs : List Char) : List Char :=
  ((cs.dropWhile p).reverse.dropWhile p).reverse

/-- The string without the blanks at its ends. -/
def trim (s : String) : String :=
  String.ofList (stripEnds isBlank s.toList)

end Agenda.Text
