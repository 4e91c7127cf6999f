import Agenda.Text.Numeral

/-!
# Instants

Points in time without a time zone, to the microsecond, on the calendar that runs in cycles of
400 years.  An instant is a count of microseconds, so instants compare as numbers; `text` writes
the calendar form, with a fraction only when there is one, and `read?` reads it back.
-/

namespace Agenda

/-- A point in time, as microseconds since the start of 1970. -/
structure Instant where
  micros : Int
  deriving DecidableEq, Repr, Inhabited

namespace Instant

instance : LE Instant := ⟨fun a b => a.micros ≤ b.micros⟩
instance : LT Instant := ⟨fun a b => a.micros < b.micros⟩
instance (a b : Instant) : Decidable (a ≤ b) := inferInstanceAs (Decidable (a.micros ≤ b.micros))
instance (a b : Instant) : Decidable (a < b) := inferInstanceAs (Decidable (a.micros < b.micros))

def addSeconds (t : Instant) (seconds : Int) : Instant := ⟨t.micros + 1000000 * seconds⟩

/-! ### Days and dates

The year is taken to start in March, so that the leap day is its last day and the lengths of the
months follow the line `(153 m + 2) / 5`. -/

/-- The days in 400 years. -/
def cycleDays : Int := 146097

/-- The days from the first of March of the year 0 to the start of 1970. -/
def epochOffset : Int := 719468

/-- The number of a day, 0 at the start of 1970. -/
def dayOfDate (year month day : Int) : Int :=
  let y := if month ≤ 2 then year - 1 else year
  let m := if month ≤ 2 then month + 9 else month - 3
  let yearOfCycle := y % 400
  y / 400 * cycleDays + yearOfCycle * 365 + yearOfCycle / 4 - yearOfCycle / 100 +
    (153 * m + 2) / 5 + day - 1 - epochOffset

/-- The year, month and day with a given number. -/
def dateOfDay (number : Int) : Int × Int × Int :=
  let shifted := number + epochOffset
  let inCycle := shifted % cycleDays
  let yearOfCycle := (inCycle - inCycle / 1460 + inCycle / 36524 - inCycle / 146096) / 365
  let inYear := inCycle - (365 * yearOfCycle + yearOfCycle / 4 - yearOfCycle / 100)
  let m := (5 * inYear + 2) / 153
  let month := if m < 10 then m + 3 else m - 9
  let year := yearOfCycle + shifted / cycleDays * 400
  (if month ≤ 2 then year + 1 else year, month, inYear - (153 * m + 2) / 5 + 1)

def isLeapYear (year : Int) : Bool :=
  year % 4 == 0 && (year % 100 != 0 || year % 400 == 0)

def daysInMonth (year month : Int) : Int :=
  if month == 2 then (if isLeapYear year then 29 else 28)
  else if month == 4 || month == 6 || month == 9 || month == 11 then 30 else 31

def ofDate (year month day : Int) : Instant := ⟨dayOfDate year month day * 86400000000⟩

/-! ### Writing -/

/-- A number in decimal digits, filled with zeros to a width. -/
def padded (width : Nat) (n : Int) : String :=
  let digits := toString n.toNat
  String.ofList (List.replicate (width - digits.length) '0') ++ digits

/-- The calendar form `YYYY-MM-DDTHH:MM:SS`, with six digits of a fraction unless it is zero. -/
def text (t : Instant) : String :=
  let (year, month, day) := dateOfDay (t.micros / 86400000000)
  let rest := t.micros % 86400000000
  let seconds := rest / 1000000
  let fraction := rest % 1000000
  padded 4 year ++ "-" ++ padded 2 month ++ "-" ++ padded 2 day ++ "T" ++
    padded 2 (seconds / 3600) ++ ":" ++ padded 2 (seconds / 60 % 60) ++ ":" ++
    padded 2 (seconds % 60) ++ (if fraction == 0 then "" else "." ++ padded 6 fraction)

/-! ### Reading -/

/-- Exactly `width` plain digits at the front, and what follows. -/
def takeNumber? (width : Nat) (cs : List Char) : Option (Int × List Char) :=
  if cs.length < width then none
  else ((cs.take width).mapM Text.plainDigit?).map fun ds =>
    ((Text.Numeral.ofDigits 10 ds : Int), cs.drop width)

/-- One of some characters at the front, and what follows. -/
def takeMark? (marks : List Char) : List Char → Option (List Char)
  | [] => none
  | c :: rest => if marks.contains c then some rest else none

/-- A date of the calendar at the front: its start, and what follows. -/
def takeDate? (cs : List Char) : Option (Instant × List Char) := do
  let (year, cs) ← takeNumber? 4 cs
  let cs ← takeMark? ['-'] cs
  let (month, cs) ← takeNumber? 2 cs
  let cs ← takeMark? ['-'] cs
  let (day, cs) ← takeNumber? 2 cs
  guard (1 ≤ month && month ≤ 12 && 1 ≤ day && day ≤ daysInMonth year month)
  return (ofDate year month day, cs)

/-- A fraction of a second in microseconds; digits past the sixth are dropped. -/
def readFraction? (cs : List Char) : Option Int :=
  if cs.isEmpty then none
  else (cs.mapM Text.plainDigit?).map fun ds =>
    Text.Numeral.ofDigits 10 ((ds ++ List.replicate 6 0).take 6)

/-- A time of day in microseconds; the seconds and their fraction may be absent. -/
def readClock? (cs : List Char) : Option Int := do
  let (hour, cs) ← takeNumber? 2 cs
  let cs ← takeMark? [':'] cs
  let (minute, cs) ← takeNumber? 2 cs
  guard (hour ≤ 23 && minute ≤ 59)
  let start := 60000000 * (60 * hour + minute)
  match cs with
  | [] => return start
  | _ =>
    let cs ← takeMark? [':'] cs
    let (second, cs) ← takeNumber? 2 cs
    guard (second ≤ 59)
    let whole := start + 1000000 * second
    match cs with
    | [] => return whole
    | _ =>
      let cs ← takeMark? ['.', ','] cs
      return whole + (← readFraction? cs)

/-- Reads a date, or a date and a time of day with a mark between them. -/
def read? (s : String) : Option Instant := do
  let (midnight, cs) ← takeDate? s.toList
  match cs with
  | [] => return midnight
  | _ =>
    let cs ← takeMark? ['T', 't', ' ', '_'] cs
    return ⟨midnight.micros + (← readClock? cs)⟩

end Instant

end Agenda
