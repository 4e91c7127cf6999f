import Agenda.Text.Blank
import Agenda.Value

/-!
# Refused fields

Why the value of a field is refused, where the field stands, and what was given there.  A record
is checked as a whole: every refused field is reported, each with its path from the outside in.
The rule for names is here as well, because fields, stored rows and requests share it.
-/

namespace Agenda

namespace Field

/-- Why a value is refused. -/
inductive Refusal
  | missing
  | notText
  /-- A text that cannot be written. -/
  | unwritable
  | tooShort
  | tooLong (limit : Nat)
  /-- A text of blanks only, in the name of this subject. -/
  | blank (subject : String)
  | notUuid
  | badUuid
  | notStatus
  | notWhole
  | unreadableWhole
  | fractional
  | notFinite
  | tooLarge
  | negative
  | notInstant
  | badInstant
  /-- An instant before the year 1. -/
  | earlyInstant
  | notList
  | notTask
  /-- The value stands inside too many others. -/
  | tooDeep
  deriving DecidableEq, Repr

namespace Refusal

def code : Refusal → String
  | .missing => "missing"
  | .notText => "string_type"
  | .unwritable => "string_unicode"
  | .tooShort => "string_too_short"
  | .tooLong _ => "string_too_long"
  | .blank _ => "value_error"
  | .notUuid => "uuid_type"
  | .badUuid => "uuid_parsing"
  | .notStatus => "enum"
  | .notWhole => "int_type"
  | .unreadableWhole => "int_parsing"
  | .fractional => "int_from_float"
  | .notFinite => "finite_number"
  | .tooLarge => "int_parsing_size"
  | .negative => "greater_than_equal"
  | .notInstant => "datetime_type"
  | .badInstant => "datetime_from_date_parsing"
  | .earlyInstant => "datetime_parsing"
  | .notList => "list_type"
  | .notTask => "model_type"
  | .tooDeep => "recursion_depth_exceeded"

def message : Refusal → String
  | .missing => "Field required"
  | .notText => "Input should be a valid string"
  | .unwritable =>
    "Input should be a valid string, unable to parse raw data as a unicode string"
  | .tooShort => "String should have at least 1 character"
  | .tooLong limit => s!"String should have at most {limit} characters"
  | .blank subject => s!"Value error, {subject} name cannot be blank"
  | .notUuid => "UUID input should be a string, bytes or UUID object"
  | .badUuid => "Input should be a valid UUID"
  | .notStatus => "Input should be 'pending' or 'completed'"
  | .notWhole => "Input should be a valid integer"
  | .unreadableWhole => "Input should be a valid integer, unable to parse string as an integer"
  | .fractional => "Input should be a valid integer, got a number with a fractional part"
  | .notFinite => "Input should be a finite number"
  | .tooLarge => "Unable to parse input string as an integer, exceeded maximum size"
  | .negative => "Input should be greater than or equal to 0"
  | .notInstant => "Input should be a valid datetime"
  | .badInstant => "Input should be a valid datetime or date"
  | .earlyInstant => "Input should be a valid datetime, year 0 is out of range"
  | .notList => "Input should be a valid list"
  | .notTask => "Input should be a valid dictionary or instance of Task"
  | .tooDeep => "Recursion error - maximum validation depth exceeded"

end Refusal

/-- One step of a path: a named field, or a place in a list. -/
inductive Step
  | field (name : String)
  | index (place : Nat)
  deriving DecidableEq, Repr

def Step.text : Step → String
  | .field name => name
  | .index place => toString place

/-- What was given for a field, as a message shows it. -/
structure Given where
  /-- The value on one line. -/
  line : String
  /-- The word for its kind. -/
  kind : String
  deriving DecidableEq, Repr

def Given.of (v : Value) : Given := ⟨v.shown, v.kindWord⟩

/-- A refused value and its place. -/
structure Error where
  path : List Step
  refusal : Refusal
  given : Given
  deriving DecidableEq, Repr

/-- The value of a field of this name is refused. -/
def Error.at (name : String) (refusal : Refusal) (given : Value) : Error :=
  ⟨[.field name], refusal, .of given⟩

/-- The place seen from some steps further out. -/
def Error.under (steps : List Step) (e : Error) : Error := { e with path := steps ++ e.path }

/-- A refused value in lines: its place, and the refusal with what was given.  A record as a whole
has no place. -/
def Error.lines (e : Error) : List String :=
  (if e.path.isEmpty then [] else [".".intercalate (e.path.map Step.text)]) ++
    [s!"  {e.refusal.message} [type={e.refusal.code}, " ++
      s!"input_value={Value.excerpt e.given.line}, input_type={e.given.kind}]"]

/-- Refused values of a record in words, under a line with their number. -/
def report (subject : String) (errors : List Error) : String :=
  let count := match errors with
    | [_] => "1 validation error"
    | _ => s!"{errors.length} validation errors"
  "\n".intercalate (s!"{count} for {subject}" :: errors.flatMap Error.lines)

end Field

/-! ### Names -/

/-- The rule for the names of one kind of subject. -/
structure NameRule where
  subject : String
  limit : Nat

namespace NameRule

/-- Task names have 1 to 500 characters, one of them not blank. -/
def task : NameRule := ⟨"Task", 500⟩

/-- Project names have 1 to 100 characters, one of them not blank. -/
def project : NameRule := ⟨"Project", 100⟩

/-- Why a name breaks the rule.  A name has to be a text that can be written; then the length is
looked at first. -/
def refusal? (rule : NameRule) (name : Text) : Option Field.Refusal :=
  if !name.isWritable then some .unwritable
  else if name.length = 0 then some .tooShort
  else if name.length > rule.limit then some (.tooLong rule.limit)
  else if name.isBlankText then some (.blank rule.subject)
  else none

end NameRule

end Agenda
