import Agenda.Program.Basic
import Agenda.Store.Database

/-!
# Sessions

A session is a stretch of work on a database that is kept or undone as a whole.  It sees its own
writes; the database sees them only once the session is committed.  A write that fails in the
database itself undoes the session at once and leaves it spent: it refuses everything until it
ends.  `Database.inSession` does one piece of work in a session of its own, `Database.transact`
several in one session, up to the first failure.
-/

namespace Agenda

/-- Work in progress on a database. -/
structure Session where
  /-- What an undoing goes back to. -/
  opened : Database
  /-- The tables with the writes of the session. -/
  current : Database
  /-- A write failed in the database itself. -/
  spent : Bool
  deriving DecidableEq, Repr, Inhabited

namespace Session

/-- A session that has done nothing yet. -/
def start (db : Database) : Session := ⟨db, db, false⟩

/-- A reply that tells of a write which failed in the database itself.  A text that cannot be
written fails a request that only looks for it, too, but then nothing was being written. -/
def breaksOff (call : Store.Call) : Except Failure call.Reply → Bool
  | .error .overflow => true
  | .error (.unwritable _) => call.method == .addTask || call.method == .rename
  | _ => false

/-- Answers a request within a session. -/
def answer (now : Instant) (call : Store.Call) (s : Session) :
    Except Failure call.Reply × Session :=
  if s.spent then (.error .spentSession, s)
  else
    let (reply, db) := Database.answer now call s.current
    if breaksOff call reply then (reply, ⟨s.opened, s.opened, true⟩)
    else (reply, { s with current := db })

instance : Store.Backend Session where
  answer := answer
  remarks := Database.remarks
  further call s := if s.spent then none else Database.further call s.current
  size s := s.current.tasks.length

/-- The row of a task or project as it describes itself. -/
def describe (s : Session) (row : Database → Option Text) : Except Failure Text :=
  if s.spent then .error .spentSession else .ok ((row s.current).getD "None")

/-- Work to be done in a session. -/
abbrev Work (α : Type) := Session → Program.Run Session α

/-- A program as work, at a time. -/
def Work.ofProgram {α : Type} (now : Instant) (p : Program α) : Work α := p.run now

/-- A look at a row as work. -/
def Work.describing (row : Database → Option Text) : Work Text :=
  fun s => ⟨s.describe row, s, []⟩

/-- What several pieces of work lead to, up to and with the first that fails. -/
structure Results (α : Type) where
  results : List (Except Failure α)
  session : Session
  log : List Log.Record

/-- Does several pieces of work one after another in one session; the first failure is the
end. -/
def workAll {α : Type} : List (Work α) → Session → Results α
  | [], s => ⟨[], s, []⟩
  | work :: rest, s =>
    let first := work s
    match first.result with
    | .error e => ⟨[.error e], first.store, first.log⟩
    | .ok a =>
      let others := workAll rest first.store
      ⟨.ok a :: others.results, others.session, first.log ++ others.log⟩

/-- Ends a session: the database is then what the session made of it.  A spent session cannot be
ended so. -/
def commit (s : Session) : Except Failure Database :=
  if s.spent then .error .spentSession else .ok s.current

end Session

namespace Database

/-- What is logged when a session is undone. -/
def undoing (why : Text) : Log.Record :=
  Log.Component.database.record .error ("Database session error, rolling back: " ++ why)

/-- Does work in a session of its own: its writes are kept if it succeeds and undone if it
fails. -/
def inSession {α : Type} (db : Database) (work : Session.Work α) : Program.Run Database α :=
  let ran := work (Session.start db)
  match ran.result with
  | .ok a => ⟨.ok a, ran.store.current, ran.log⟩
  | .error e => ⟨.error e, db, ran.log ++ [undoing e.message]⟩

/-- What a transaction leads to. -/
structure Transaction (α : Type) where
  results : List (Except Failure α)
  committed : Bool
  database : Database
  log : List Log.Record

/-- Does several pieces of work in one session and keeps all their writes, or none: none if one of
them fails or if the transaction is to be aborted. -/
def transact {α : Type} (db : Database) (works : List (Session.Work α)) (abort : Bool) :
    Transaction α :=
  let done := Session.workAll works (Session.start db)
  if abort || done.results.any fun r => !r.isOk then
    ⟨done.results, false, db, done.log ++ [undoing ""]⟩
  else ⟨done.results, true, done.session.current, done.log⟩

end Database

end Agenda
