import Agenda.Text.Blank

/-!
# Texts

A text is a sequence of code points, as it may come from outside.  Nearly all code points are
characters.  The others are the surrogates, `D800` to `DFFF`: halves of characters in an encoding of
sixteen-bit units, which stand for nothing alone.  Inside a program a surrogate is as good as a
character: texts that hold one are compared, measured, shown and kept like any other.  But no
encoding in bytes has a place for it, so `isWritable` tells which texts a file or a database can
take, and `string?` is such a text as a string of characters.  Every string is a text.
-/

namespace Agenda

namespace Text

/-- A code point. -/
inductive Point
  | char (c : Char)
  /-- A surrogate, by its number counted from `D800`. -/
  | half (n : Fin 2048)
  deriving DecidableEq, Repr, Inhabited

namespace Point

def toNat : Point → Nat
  | .char c => c.toNat
  | .half n => 0xd800 + n.val

def char? : Point → Option Char
  | .char c => some c
  | .half _ => none

def isChar (p : Point) : Bool := p.char?.isSome

/-- A code point that names may not consist of alone. -/
def isBlank : Point → Bool
  | .char c => Text.isBlank c
  | .half _ => false

end Point

end Text

/-- A sequence of code points. -/
@[ext]
structure Text where
  points : List Text.Point
  deriving DecidableEq, Repr, Inhabited

namespace Text

/-- A string as a text. -/
def ofString (s : String) : Text := ⟨s.toList.map .char⟩

instance : Coe String Text := ⟨ofString⟩

instance : Append Text := ⟨fun s t => ⟨s.points ++ t.points⟩⟩

def length (t : Text) : Nat := t.points.length

/-- A text of nothing but blanks; the empty text is one. -/
def isBlankText (t : Text) : Bool :=
  t.points.all Point.isBlank

/-- A text of characters only, which can be written as bytes. -/
def isWritable (t : Text) : Bool :=
  t.points.all Point.isChar

/-- A text as a string, if it consists of characters only. -/
def string? (t : Text) : Option String :=
  if t.isWritable then some (String.ofList (t.points.filterMap Point.char?)) else none

/-! ### Strings as texts -/

@[simp] theorem points_append (s t : Text) : (s ++ t).points = s.points ++ t.points := rfl

@[simp] theorem points_ofString (s : String) : (s : Text).points = s.toList.map .char := rfl

/-- Every string can be written. -/
@[simp] theorem isWritable_ofString (s : String) : (s : Text).isWritable = true := by
  simp [isWritable, Point.isChar, Point.char?]

/-- A string read as a text and back is the same string. -/
@[simp] theorem string?_ofString (s : String) : (s : Text).string? = some s := by
  simp [string?, List.filterMap_map, Function.comp_def, Point.char?]

/-- The texts that can be written are the strings. -/
theorem isWritable_iff {t : Text} : t.isWritable = true ↔ ∃ s : String, t = s := by
  constructor
  · obtain ⟨ps⟩ := t
    intro h
    refine ⟨String.ofList (ps.filterMap Point.char?), ?_⟩
    rw [ofString, String.toList_ofList, Text.mk.injEq]
    induction ps with
    | nil => rfl
    | cons p ps ih =>
      simp only [isWritable, List.all_cons, Bool.and_eq_true] at h
      cases p with
      | char c => simpa [Point.char?] using ih h.2
      | half n => simp [Point.isChar, Point.char?] at h
  · rintro ⟨s, rfl⟩
    exact isWritable_ofString s

theorem string?_eq_none_iff {t : Text} : t.string? = none ↔ t.isWritable = false := by
  simp [string?]

theorem string?_eq_some_iff {t : Text} {s : String} : t.string? = some s ↔ t = s := by
  constructor
  · intro h
    have hw : t.isWritable = true := by
      rw [← Bool.not_eq_false, ← string?_eq_none_iff, h]
      exact Option.some_ne_none s
    obtain ⟨s', rfl⟩ := isWritable_iff.1 hw
    rw [string?_ofString, Option.some.injEq] at h
    rw [h]
  · rintro rfl
    exact string?_ofString s

end Text

end Agenda
