import Agenda.Lock.Registry
import Agenda.Plan

/-!
# Concurrent operations

Operations that run side by side on one store.  An operation is interrupted at one point only:
when it is prepared and waits for its project.  A `Scene` starts with some projects taken by
outsiders.  Every operation is then launched in turn and runs to its end, or up to the point where
it waits; when an outsider gives its project back, the operations that wait for it run one after
another in the order in which they began to wait.
-/

namespace Agenda

/-- Who takes a project for itself: an outsider, or one of the operations. -/
inductive Party
  | outsider (project : Uuid)
  | operation (place : Nat)
  deriving DecidableEq, Repr

/-- An operation that runs side by side with others. -/
inductive Job (α : Type)
  | finished (result : Except Failure α)
  /-- The rest of the operation waits for a project. -/
  | waiting (now : Instant) (project : Uuid) (body : Program α)

def Job.isDone {α : Type} : Job α → Bool
  | .finished _ => true
  | .waiting .. => false

/-- The store, the locks, the operations launched so far, and the log. -/
structure Scene (σ α : Type) where
  store : σ
  locks : Lock.Registry Party
  jobs : List (Job α)
  log : List Log.Record

namespace Scene

variable {σ α : Type} [Store.Backend σ]

def exec {β : Type} (s : Scene σ α) (now : Instant) (p : Program β) :
    Except Failure β × Scene σ α :=
  let ran := p.run now s.store
  (ran.result, { s with store := ran.store, log := s.log ++ ran.log })

/-- Outsiders take projects. -/
def take (s : Scene σ α) (projects : List Uuid) : Scene σ α :=
  projects.foldl (fun s project =>
    let (locks, entered) := s.locks.arrive (.outsider project) project
    { s with locks := locks, log := s.log ++ if entered then [Plan.acquired project] else [] }) s

/-- A party gives its project back, and whoever waited for it first runs to its end, and so on for
a number of operations. -/
def giveBack : Nat → Party → Scene σ α → Scene σ α
  | 0, _, s => s
  | n + 1, party, s =>
    let (locks, next) := s.locks.leave party
    let s : Scene σ α := { s with locks := locks }
    match next with
    | some (.operation place) =>
      match s.jobs[place]? with
      | some (.waiting now project body) =>
        let (result, s) := s.exec now (Plan.exclusive project body).rest
        giveBack n (.operation place) { s with jobs := s.jobs.set place (.finished result) }
      | _ => s
    | _ => s

def launch (s : Scene σ α) (now : Instant) (p : Program (Plan α)) : Scene σ α :=
  let (plan, s) := s.exec now p
  match plan with
  | .error e => { s with jobs := s.jobs ++ [.finished (.error e)] }
  | .ok (.settled a) => { s with jobs := s.jobs ++ [.finished (.ok a)] }
  | .ok (.exclusive project body) =>
    let place := s.jobs.length
    let (locks, entered) := s.locks.arrive (.operation place) project
    let s : Scene σ α := { s with locks := locks }
    if entered then
      let (result, s) := s.exec now (Plan.exclusive project body).rest
      giveBack (place + 1) (.operation place) { s with jobs := s.jobs ++ [.finished result] }
    else { s with jobs := s.jobs ++ [.waiting now project body] }

/-- An outsider gives its project back. -/
def release (s : Scene σ α) (project : Uuid) : Scene σ α :=
  giveBack (s.jobs.length + 1) (.outsider project) s

/-- What can be seen of a scene between its steps. -/
structure View where
  done : List Bool
  inUse : Nat
  locked : List Bool
  deriving DecidableEq, Repr

def view (s : Scene σ α) (projects : List Uuid) : View :=
  ⟨s.jobs.map Job.isDone, s.locks.size, projects.map s.locks.isLocked⟩

/-- The results of the operations; one that still waits has none. -/
def results (s : Scene σ α) : List (Option (Except Failure α)) :=
  s.jobs.map fun
    | .finished result => some result
    | .waiting .. => none

/-- The scene once all operations are launched while outsiders hold some projects. -/
def started (store : σ) (locks : Lock.Registry Party) (held : List Uuid)
    (jobs : List (Instant × Program (Plan α))) : Scene σ α :=
  jobs.foldl (fun s (now, p) => s.launch now p) ((⟨store, locks, [], []⟩ : Scene σ α).take held)

/-- The scenes of a whole run: the first when all operations are launched, then one after each
project that is given back. -/
def stages (first : Scene σ α) : List Uuid → List (Scene σ α)
  | [] => [first]
  | project :: rest => first :: stages (first.release project) rest

end Scene

end Agenda
