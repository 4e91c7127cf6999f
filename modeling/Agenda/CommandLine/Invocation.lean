import Agenda.CommandLine.Command
import Agenda.Connection
import Agenda.Log.Setup
import Agenda.Settings

/-!
# Invocations

One call of the program: words, variables and an occasion come in; an ending, the lines to print
and log records come out.  What lasts from one call to the next is a `Machine`: its home directory
and its disk.  The log is set up anew by each call.
-/

namespace Agenda.CommandLine

/-- Where the program is called. -/
structure Machine where
  home : String
  /-- The text of the settings file, if there is one. -/
  settings : Option String
  logFile : String
  disk : Disk
  deriving DecidableEq, Repr

/-- A call of the program. -/
structure Invocation where
  words : List String
  environment : Environment
  occasion : Occasion
  /-- Somebody interrupts the program as soon as the database is open. -/
  interrupted : Bool
  deriving DecidableEq, Repr

/-- How a call ends. -/
inductive Ending
  /-- The command line is not carried out. -/
  | refused (exit : Exit)
  /-- The program ends with a code; these lines are printed, and these are error messages. -/
  | finished (code : Nat) (lines errors : List Text)
  /-- The program breaks off. -/
  | failed (e : Failure)
  deriving DecidableEq, Repr

/-- What a call leads to: how it ends, the machine afterwards, and the lines in the log file. -/
structure Outcome where
  ending : Ending
  machine : Machine
  logged : List String
  deriving DecidableEq, Repr

namespace Invocation

/-- A log record about the call itself. -/
def record (level : Log.Level) (message : Text) : Log.Record :=
  Log.Component.commandLine.record level message

/-- The ending for a result of a command, and what is logged about it. -/
def conclude (c : Command) : Except Failure (Option (List Text)) → Ending × List Log.Record
  | .ok (some lines) => (.finished 0 lines [], [])
  | .ok none => (.finished 1 [] [], [record .info "tasktree interrupted by user (Ctrl+C)"])
  | .error (.problem p) =>
    (.finished 1 [] ["error: " ++ p.message],
      [record .error (s!"Command '{c.word}' failed: " ++ p.message)])
  | .error e => (.failed e, [])

/-- Carries a request out on the database at an address.  The connection is closed in any case; a
call that is interrupted has no result. -/
def execute (i : Invocation) (r : Request) (url : String) (disk : Disk) :
    Program.Run Disk (Option (List Text)) :=
  let opened := (Connection.unopened url).connect disk
  let (c, disk) := opened.store
  match opened.result with
  | .error e => ⟨.error e, disk, opened.log⟩
  | .ok () =>
    if i.interrupted then ⟨.ok none, disk, opened.log ++ c.close.2⟩
    else
      let work := Session.Work.ofProgram i.occasion.now (r.command.program i.occasion r.arguments)
      let ran := c.inSession disk work
      let (c, disk) := ran.store
      ⟨ran.result.map some, disk, opened.log ++ ran.log ++ c.close.2⟩

/-- The address that a request names, or else the one in the settings. -/
def urlOf (r : Request) (d : Settings.OfDatabase) : String :=
  match r.arguments.databaseUrl with
  | some url => if url = "" then d.url else url
  | none => d.url

/-- Calls the program on a machine.  The settings are loaded before the log is set up, so what is
logged about that is lost. -/
def run (i : Invocation) (m : Machine) : Outcome :=
  match Request.read i.words with
  | .error exit => ⟨.refused exit, m, []⟩
  | .ok r =>
    let settings := Settings.load m.home m.settings
    let early := Log.Setup.initial.lines [settings.loading]
    match settings.log i.environment with
    | .error e => ⟨.failed e, m, early⟩
    | .ok forLog =>
      let (log, starting) := Log.Setup.start forLog.level m.logFile forLog.console
      match settings.database i.environment with
      | .error e => ⟨.failed e, m, early ++ log.lines [starting]⟩
      | .ok forDatabase =>
        let ran := i.execute r (urlOf r forDatabase) m.disk
        let (ending, last) := conclude r.command ran.result
        ⟨ending, { m with disk := ran.store },
          early ++ log.lines (starting :: Settings.reporting forDatabase :: ran.log ++ last)⟩

end Invocation

end Agenda.CommandLine
