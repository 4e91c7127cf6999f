/-!
# Lenient reading of bytes

Bytes as a text in the encoding of one to four bytes a character.  Where the bytes are not well
formed, the replacement character takes the place of the longest beginning of a character that is
there, and of a single byte if that byte begins none.
-/

namespace Agenda.Text

namespace Utf8

/-- A character of which the first bytes have been read. -/
structure Started where
  /-- How many bytes are still missing. -/
  missing : Nat
  /-- The least and the greatest value of the next byte. -/
  low : Nat
  high : Nat
  /-- What the bytes so far contribute to the code point. -/
  value : Nat

/-- What a byte between characters is: a character, the first byte of one, or neither. -/
inductive First
  | char (c : Char)
  | lead (s : Started)
  | stray

/-- The first byte of a character decides how many follow, and the range of the second one, so that
no code point can be written in two ways. -/
def first (b : Nat) : First :=
  if b < 0x80 then .char (Char.ofNat b)
  else if 0xc2 ≤ b && b ≤ 0xdf then .lead ⟨1, 0x80, 0xbf, b - 0xc0⟩
  else if b == 0xe0 then .lead ⟨2, 0xa0, 0xbf, 0⟩
  else if b == 0xed then .lead ⟨2, 0x80, 0x9f, 0xd⟩
  else if 0xe1 ≤ b && b ≤ 0xef then .lead ⟨2, 0x80, 0xbf, b - 0xe0⟩
  else if b == 0xf0 then .lead ⟨3, 0x90, 0xbf, 0⟩
  else if b == 0xf4 then .lead ⟨3, 0x80, 0x8f, 4⟩
  else if 0xf1 ≤ b && b ≤ 0xf3 then .lead ⟨3, 0x80, 0xbf, b - 0xf0⟩
  else .stray

/-- The character that stands for bytes which are none. -/
def replacement : Char := '\ufffd'

/-- A byte between characters: the characters that it makes, and the one that it starts. -/
def enter (b : Nat) : List Char × Option Started :=
  match first b with
  | .char c => ([c], none)
  | .lead s => ([], some s)
  | .stray => ([replacement], none)

/-- A byte behind the first bytes of a character. -/
def advance (s : Started) (b : Nat) : List Char × Option Started :=
  if s.low ≤ b && b ≤ s.high then
    let value := 64 * s.value + b % 64
    if s.missing ≤ 1 then ([Char.ofNat value], none)
    else ([], some ⟨s.missing - 1, 0x80, 0xbf, value⟩)
  else
    let (cs, next) := enter b
    (replacement :: cs, next)

/-- The characters of bytes, perhaps behind the first bytes of a character. -/
def decodeFrom : Option Started → List Nat → List Char
  | none, [] => []
  | some _, [] => [replacement]
  | none, b :: bs => (enter b).1 ++ decodeFrom (enter b).2 bs
  | some s, b :: bs => (advance s b).1 ++ decodeFrom (advance s b).2 bs

def decode (bs : List Nat) : List Char := decodeFrom none bs

def encode (c : Char) : List Nat := (String.utf8EncodeChar c).map UInt8.toNat

end Utf8

end Agenda.Text
