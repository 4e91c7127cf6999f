import Agenda.Log.Record
import Agenda.Settings.Reference
import Agenda.Text.Numeral

/-!
# Settings

What the surroundings say about the database and the log.  Settings come from a file in the home
directory; variables of the environment go before the file, and defaults come after it.  A
variable with an empty value counts as absent.
-/

namespace Agenda

/-- The variables of the environment. -/
abbrev Environment := List (String × String)

namespace Environment

/-- The value of a variable that is set and not empty. -/
def text? (e : Environment) (name : String) : Option String :=
  (e.lookup name).filter (· ≠ "")

/-- A variable as a truth value: some words mean yes, in any letter case, and all others mean
no. -/
def flag? (e : Environment) (name : String) : Option Bool :=
  (e.text? name).map fun s => ["1", "true", "yes", "on"].contains (Text.toLower s)

end Environment

/-- The settings file, if there is one, and the home directory where it is looked for. -/
structure Settings where
  home : String
  /-- What was read from the file; `none` if there is no file. -/
  file : Option Settings.Ini
  deriving DecidableEq, Repr

namespace Settings

/-- The directory for everything that is kept between runs. -/
def directory (home : String) : String := s!"{home}/.tasktree"

/-- Where the settings file is looked for. -/
def path (s : Settings) : String := s!"{directory s.home}/config.ini"

/-- The address of the database if nothing else is said. -/
def defaultUrl (home : String) : String :=
  s!"sqlite+aiosqlite:///{directory home}/tasktree.db"

/-- Settings from the text of a file, if there is one. -/
def load (home : String) (text : Option String) : Settings := ⟨home, text.map Ini.ofText⟩

def ini (s : Settings) : Ini := s.file.getD .empty

/-- Something in the file could not be read. -/
def failed (s : Settings) : Bool := s.ini.faulty

/-- What is logged when the settings are loaded. -/
def loading (s : Settings) : Log.Record :=
  match s.file with
  | none =>
    Log.Component.settings.record .debug s!"Config file not found at {s.path}. Using defaults."
  | some ini =>
    if ini.faulty then
      Log.Component.settings.record .warning "Failed to read config file. Using defaults."
    else Log.Component.settings.record .info s!"Loaded configuration from {s.path}"

/-! ### Options -/

/-- The value of an option, if it is there. -/
def get? (s : Settings) (name key : String) : Except Failure (Option String) :=
  s.ini.get? name key

/-- A value as a truth value. -/
def readFlag (s : String) : Except Failure Bool :=
  let word := Text.toLower s
  if ["1", "yes", "true", "on"].contains word then .ok true
  else if ["0", "no", "false", "off"].contains word then .ok false
  else .error (.badValue s!"Not a boolean: {s}")

/-- A value as a whole number. -/
def readWhole (s : String) : Except Failure Int :=
  (Text.readInteger s).mapError fun fault => .badValue (fault.message s)

/-- The value of an option in a form, if the option is there. -/
def getAs? {α : Type} (read : String → Except Failure α) (s : Settings) (name key : String) :
    Except Failure (Option α) := do
  match ← s.get? name key with
  | none => return none
  | some text => return some (← read text)

def flag? (s : Settings) (name key : String) : Except Failure (Option Bool) :=
  s.getAs? readFlag name key

def whole? (s : Settings) (name key : String) : Except Failure (Option Int) :=
  s.getAs? readWhole name key

/-- A truth value from a variable, or else from an option; neither means no. -/
def flagOf (s : Settings) (e : Environment) (word name key : String) : Except Failure Bool :=
  match e.flag? word with
  | some b => .ok b
  | none => (s.flag? name key).map (·.getD false)

/-- A text from a variable, or else from an option, or else a default. -/
def textOf (s : Settings) (e : Environment) (word name key default : String) :
    Except Failure String :=
  match e.text? word with
  | some text => .ok text
  | none => (s.get? name key).map (·.getD default)

/-! ### Parts -/

/-- Settings of the database. -/
structure OfDatabase where
  url : String
  echo : Bool
  deriving DecidableEq, Repr

/-- Settings of the log. -/
structure OfLog where
  level : String
  console : Bool
  deriving DecidableEq, Repr

def database (s : Settings) (e : Environment) : Except Failure OfDatabase := do
  let echo ← s.flagOf e "TASKTREE_DATABASE_ECHO" "database" "echo"
  let url ← s.textOf e "TASKTREE_DATABASE_URL" "database" "url" (defaultUrl s.home)
  return ⟨url, echo⟩

/-- What is logged about the settings of the database. -/
def reporting (d : OfDatabase) : Log.Record :=
  Log.Component.settings.record .debug <|
    s!"Database config: url={d.url}, echo={Scalar.flagWord d.echo}"

def log (s : Settings) (e : Environment) : Except Failure OfLog := do
  let console ← s.flagOf e "TASKTREE_LOG_CONSOLE" "logging" "console"
  let level ← s.textOf e "TASKTREE_LOG_LEVEL" "logging" "level" "INFO"
  return ⟨Text.toUpper level, console⟩

end Settings

end Agenda
