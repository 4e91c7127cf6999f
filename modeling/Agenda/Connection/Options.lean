import Agenda.Connection.Address
import Agenda.Text.Blank
import Agenda.Text.Decimal
import Agenda.Text.LetterCase

/-!
# Options of the driver

Six options of an address are for the driver: whether the path is a locator, how long to wait, how
transactions begin, which columns to convert, whether threads are checked, and how many statements
to remember.  They are read in this order, and the first that cannot be read is a mistake in the
address.  Numbers out of range, and a transaction level that is given twice, are found out only
when the database is opened.  All other options are for a locator.
-/

namespace Agenda

/-- What the driver is told. -/
structure Options where
  /-- The path is a locator, a text that may have options of its own. -/
  locator : Bool
  /-- The transaction level is given more than once. -/
  mixedLevel : Bool
  /-- Which columns to convert, as bits. -/
  conversions : Int
  /-- How many statements to remember. -/
  remembered : Int
  deriving DecidableEq, Repr

namespace Options

/-- The names of the options that are for the driver. -/
def names : List String :=
  ["uri", "timeout", "isolation_level", "detect_types", "check_same_thread", "cached_statements"]

def yes : List String := ["true", "yes", "on", "y", "t", "1"]

def no : List String := ["false", "no", "off", "n", "f", "0"]

/-- The values of an option as yes or no; several values are a yes. -/
def readFlag : List String → Except Failure Bool
  | [value] =>
    let word := Text.toLower (Text.trim value)
    if yes.contains word then .ok true
    else if no.contains word then .ok false
    else .error (.badValue s!"String is not true/false: {Text.quoted word}")
  | _ => .ok true

/-- The values of an option stand for one number with a point. -/
def checkDecimal : List String → Except Failure Unit
  | [value] =>
    if Text.isDecimal value then .ok ()
    else .error (.badValue s!"could not convert string to float: {Text.quoted value}")
  | _ => .error <| .wrongKind "float() argument must be a string or a real number, not 'tuple'"

/-- The values of an option as one whole number. -/
def readWhole : List String → Except Failure Int
  | [value] => (Text.readInteger value).mapError fun fault => .badValue (fault.message value)
  | _ =>
    .error <| .wrongKind
      "int() argument must be a string, a bytes-like object or a real number, not 'tuple'"

def optional {α : Type} (a : Address) (name : String) (absent : α)
    (f : List String → Except Failure α) : Except Failure α :=
  match a.options.lookup name with
  | some values => f values
  | none => .ok absent

def read (a : Address) : Except Failure Options := do
  let locator ← optional a "uri" false readFlag
  optional a "timeout" () checkDecimal
  let levels := (a.options.lookup "isolation_level").getD []
  let conversions ← optional a "detect_types" 0 readWhole
  let _ ← optional a "check_same_thread" false readFlag
  let remembered ← optional a "cached_statements" 0 readWhole
  return ⟨locator, 1 < levels.length, conversions, remembered⟩

/-- The range of the numbers that the driver takes. -/
def fits (n : Int) : Bool := -0x80000000 ≤ n && n ≤ 0x7fffffff

/-- What the driver finds wrong when it opens the database. -/
def check (o : Options) : Except Failure Unit :=
  if !fits o.conversions then .error .driverOverflow
  else if o.mixedLevel then
    .error <| .badValue
      "isolation_level string must be '', 'DEFERRED', 'IMMEDIATE', or 'EXCLUSIVE'"
  else if !fits o.remembered then .error .driverOverflow
  else .ok ()

end Options

end Agenda
