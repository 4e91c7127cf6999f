import Agenda.Store.Call

/-!
# Programs

An operation on the task tree as data: what it asks of the store, what it logs, and how it goes on
with each reply.  Nothing happens until a program is run against a backend, so one program serves
every backend, and statements about all programs are proved once, by induction on the program.

A call may fail, and the program is handed the failure like any other reply: catching a failure
is part of the program, not of the runner.  `Program.size` asks how many tasks are stored; no walk
towards a root is longer, so it is what walks are bounded by.  `Program.further` asks what else the
store would look up to answer a request, which matters to faults only.
-/

namespace Agenda

/-- An operation as data, with a result of type `α`. -/
inductive Program (α : Type) : Type
  | done (result : Except Failure α)
  | call (request : Store.Call) (next : Except Failure request.Reply → Program α)
  | note (entry : Log.Record) (next : Program α)
  | size (next : Nat → Program α)
  | further (request : Store.Call) (next : Option Store.Method → Program α)

namespace Program

variable {α β : Type}

/-- One program after another; a failure of the first is the failure of both. -/
def bind (p : Program α) (f : α → Program β) : Program β :=
  match p with
  | .done (.ok a) => f a
  | .done (.error e) => .done (.error e)
  | .call request next => .call request fun reply => (next reply).bind f
  | .note entry next => .note entry (next.bind f)
  | .size next => .size fun n => (next n).bind f
  | .further request next => .further request fun method => (next method).bind f

/-- A program, and another one in case of its failure. -/
def handle (p : Program α) (f : Failure → Program α) : Program α :=
  match p with
  | .done (.ok a) => .done (.ok a)
  | .done (.error e) => f e
  | .call request next => .call request fun reply => (next reply).handle f
  | .note entry next => .note entry (next.handle f)
  | .size next => .size fun n => (next n).handle f
  | .further request next => .further request fun method => (next method).handle f

instance : Monad Program where
  pure a := .done (.ok a)
  bind := bind

instance : MonadExceptOf Failure Program where
  throw e := .done (.error e)
  tryCatch := handle

def fail (e : Failure) : Program α := .done (.error e)

def ask (request : Store.Call) : Program request.Reply := .call request .done

def log (c : Log.Component) (level : Log.Level) (message : Text) : Program Unit :=
  .note (c.record level message) (.done (.ok ()))

def stored : Program Nat := .size fun n => .done (.ok n)

/-- Goes on with a result that is there already. -/
def ofExcept : Except Problem α → Program α
  | .ok a => .done (.ok a)
  | .error p => .done (.error (.problem p))

/-- Reports the problems of a program in a context. -/
def inContext (c : Problem.Context) (p : Program α) : Program α :=
  p.handle fun e => .done (.error (e.inContext c))

/-! ### Running -/

/-- What running a program leads to: its result, the state of the store, and the log. -/
structure Run (σ α : Type) where
  result : Except Failure α
  store : σ
  log : List Log.Record

/-- The records of a call: those of the backend if the call succeeds. -/
def remarksFor {σ : Type} [Store.Backend σ] (request : Store.Call) :
    Except Failure request.Reply → List Log.Record
  | .ok _ => Store.Backend.remarks σ request
  | .error _ => []

/-- Runs a program at a time, from a state of the store. -/
def run {σ : Type} [Store.Backend σ] (now : Instant) : Program α → σ → Run σ α
  | .done result, s => ⟨result, s, []⟩
  | .call request next, s =>
    let (reply, s') := Store.Backend.answer now request s
    let rest := (next reply).run now s'
    ⟨rest.result, rest.store, remarksFor (σ := σ) request reply ++ rest.log⟩
  | .note entry next, s =>
    let rest := next.run now s
    ⟨rest.result, rest.store, entry :: rest.log⟩
  | .size next, s => (next (Store.Backend.size s)).run now s
  | .further request next, s => (next (Store.Backend.further request s)).run now s

end Program

end Agenda
