import Agenda.Log.Record
import Agenda.Scalar
import Agenda.Text.LetterCase

/-!
# Setting up the log

A set-up says how grave a record has to be to get into the log, and where the log goes: to a file
that is exchanged when it has grown, and perhaps to the console as well.  The level comes as a
word in any letter case; a word that names no level stands for `INFO`.
-/

namespace Agenda.Log

/-- The source that a name stands for; no name stands for the root of all sources. -/
def sourceNamed (name : String) : String := if name = "" then "root" else name

/-- The levels that have a name, by their names; some have two. -/
def Level.names : List (String × Level) :=
  [("CRITICAL", .critical), ("FATAL", .critical), ("ERROR", .error), ("WARNING", .warning),
    ("WARN", .warning), ("INFO", .info), ("DEBUG", .debug), ("NOTSET", ⟨0⟩)]

/-- The level that a word names, and its name in upper case. -/
def Level.read (word : String) : String × Level :=
  let name := Text.toUpper word
  match Level.names.lookup name with
  | some level => (name, level)
  | none => ("INFO", .info)

/-- A place where the log goes. -/
inductive Handler
  /-- A file that is exchanged for a new one at a size; so many old ones are kept. -/
  | file (level : Level) (maxBytes backups : Nat)
  | console (level : Level)
  deriving DecidableEq, Repr

/-- How the log is set up. -/
structure Setup where
  /-- Records below this level are dropped. -/
  threshold : Level
  handlers : List Handler
  deriving DecidableEq, Repr

namespace Setup

/-- Nothing is set up: grave records pass, and go nowhere. -/
def initial : Setup := ⟨.warning, []⟩

/-- The set-up for a level. -/
def of (level : Level) (console : Bool) : Setup where
  threshold := level
  handlers :=
    .file level (10 * 1024 * 1024) 5 :: if console then [.console level] else []

/-- What is logged when the log is set up. -/
def starting (name file : String) (console : Bool) : Record :=
  Component.logging.record .info <|
    s!"Logging initialized: level={name}, file={file}, console={Scalar.flagWord console}"

/-- The word for the level: one that is given, or else one from the environment, or else `INFO`. -/
def levelWord (given surrounding : Option String) : String :=
  (given.or surrounding).getD "INFO"

/-- Sets the log up for a level in words, and makes the first record. -/
def start (word file : String) (console : Bool) : Setup × Record :=
  let (name, level) := Level.read word
  (of level console, starting name file console)

/-- A record gets into the log file.  Levels below every name are never logged. -/
def writes (s : Setup) (r : Record) : Bool :=
  !s.handlers.isEmpty && 0 < r.level.value && s.threshold.value ≤ r.level.value

/-- The lines that records leave in the log file.  A record that cannot be written leaves none. -/
def lines (s : Setup) (records : List Record) : List String :=
  (records.filter s.writes).filterMap fun r =>
    r.message.string?.map fun message => s!"{r.source} - {r.level.name} - {message}"

end Setup

end Agenda.Log
