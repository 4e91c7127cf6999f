import Agenda.CommandLine.Invocation
import Std.Time.DateTime.Timestamp

/-!
# The program

The outer layer: it collects the words, the variables, the settings file, the time and a random
identifier, calls `CommandLine.Invocation.run`, prints what comes back and adds to the log file.
Everything that is decided is decided there.  A database in a file is not read from the file and not
written to it: each call of the program starts with empty tables, and what it stores is gone when it
ends.
-/

namespace Agenda

/-- The time by the clock of the machine, to the millisecond. -/
def Instant.current : IO Instant := do
  let t ← Std.Time.Timestamp.now
  return ⟨1000 * t.toMillisecondsSinceUnixEpoch.val⟩

/-- The identifier with random bits, but for the six that mark it as random. -/
def Uuid.ofRandomBits (n : Nat) : Uuid :=
  .ofNat (n &&& 0xffffffffffff0fff3fffffffffffffff ||| 0x00000000000040008000000000000000)

def Uuid.random : IO Uuid := do
  let bytes ← IO.getRandomBytes 16
  return .ofRandomBits (bytes.foldl (fun n b => 256 * n + b.toNat) 0)

namespace CommandLine

/-- The variables that the settings look at. -/
def variableNames : List String :=
  ["TASKTREE_DATABASE_URL", "TASKTREE_DATABASE_ECHO", "TASKTREE_LOG_LEVEL", "TASKTREE_LOG_CONSOLE"]

def currentVariables : IO Environment := do
  let values ← variableNames.mapM fun name => do return (← IO.getEnv name).map (name, ·)
  return values.filterMap id

/-- The text of a file that can be read. -/
def readText? (path : String) : IO (Option String) := do
  try
    return some (← IO.FS.readFile path)
  catch _ => return none

/-- Adds lines to a log file in a directory. -/
def addToLog (directory file : String) (lines : List String) : IO Unit := do
  IO.FS.createDirAll directory
  let handle ← IO.FS.Handle.mk file .append
  lines.forM handle.putStrLn

/-- Prints how a call ended; the answer is the exit code. -/
def report : Ending → IO UInt32
  | .refused exit => return exit.code.toUInt32
  | .finished code lines errors => do
    lines.forM fun line => IO.println line.escaped
    errors.forM fun line => IO.eprintln line.escaped
    return code.toUInt32
  | .failed e => do
    IO.eprintln e.message.escaped
    return 1

end CommandLine

end Agenda

open Agenda CommandLine in
/-- Calls the program once. -/
def main (words : List String) : IO UInt32 := do
  let home := (← IO.getEnv "HOME").getD "."
  let logs := s!"{Settings.directory home}/logs"
  let logFile := s!"{logs}/tasktree.log"
  let settings ← readText? (Settings.load home none).path
  let machine : Machine := ⟨home, settings, logFile, .ofDirectories []⟩
  let occasion : Occasion := ⟨← Instant.current, ← Uuid.random⟩
  let outcome := (⟨words, ← currentVariables, occasion, false⟩ : Invocation).run machine
  if outcome.logged.isEmpty then pure () else addToLog logs logFile outcome.logged
  report outcome.ending
