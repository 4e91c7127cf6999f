import Agenda.Uuid

/-!
# The registry of locks

One lock per project, made when somebody first asks for it and dropped when the last one who uses
it leaves.  A lock has a holder and a queue: whoever arrives at a free lock holds it, all others
wait, and a lock that is given up goes to the first in its queue.

The registry keeps, for every project in use, the lock registered for it and the number of its
users; a user keeps a ticket for the lock that was registered when it arrived.  That the ticket
and the registered lock never differ is not built in, it is what the rules of `arrive` and `leave`
achieve.
-/

namespace Agenda.Lock

variable {ω : Type} [DecidableEq ω]

/-- A lock: who holds it, and who waits for it, the first in front. -/
structure Mutex (ω : Type) where
  holder : Option ω
  queue : List ω
  deriving Repr, Inhabited

/-- The claim of a user: for a project, to the lock with a number. -/
structure Ticket (ω : Type) where
  user : ω
  project : Uuid
  lock : Nat
  deriving Repr

/-- Locks in use. -/
structure Registry (ω : Type) where
  /-- All locks ever made; a lock is known by its place. -/
  made : List (Mutex ω)
  /-- The lock of each project in use. -/
  registered : List (Uuid × Nat)
  /-- The number of users of each project in use. -/
  users : List (Uuid × Nat)
  /-- The tickets of all users, in the order of their arrival. -/
  tickets : List (Ticket ω)
  deriving Repr

namespace Registry

def empty : Registry ω := ⟨[], [], [], []⟩

/-- The number of projects in use. -/
def size (r : Registry ω) : Nat := r.registered.length

def lockAt (r : Registry ω) (n : Nat) : Mutex ω := r.made.getD n ⟨none, []⟩

/-- Somebody holds the lock of a project. -/
def isLocked (r : Registry ω) (project : Uuid) : Bool :=
  match r.registered.lookup project with
  | some n => (r.lockAt n).holder.isSome
  | none => false

def ticket? (r : Registry ω) (user : ω) : Option (Ticket ω) :=
  r.tickets.find? (·.user = user)

/-- A user holds the lock it asked for. -/
def isInside (r : Registry ω) (user : ω) : Bool :=
  match r.ticket? user with
  | some t => (r.lockAt t.lock).holder = some user
  | none => false

/-- A table with another number for a project; the project keeps its place, or comes last. -/
def setCount (table : List (Uuid × Nat)) (project : Uuid) (n : Nat) : List (Uuid × Nat) :=
  if (table.lookup project).isSome then
    table.map fun (p, m) => if p = project then (p, n) else (p, m)
  else table ++ [(project, n)]

def dropKey (table : List (Uuid × Nat)) (project : Uuid) : List (Uuid × Nat) :=
  table.filter (·.1 != project)

/-- The number of the lock registered for a project; one is made if there is none. -/
def lockFor (r : Registry ω) (project : Uuid) : Nat × Registry ω :=
  match r.registered.lookup project with
  | some n => (n, r)
  | none =>
    (r.made.length,
      { r with
        made := r.made ++ [⟨none, []⟩]
        registered := r.registered ++ [(project, r.made.length)] })

/-- A lock with one more user, and whether that user holds it. -/
def Mutex.join (m : Mutex ω) (user : ω) : Mutex ω × Bool :=
  if m.holder.isNone && m.queue.isEmpty then (⟨some user, []⟩, true)
  else ({ m with queue := m.queue ++ [user] }, false)

/-- A user asks for the lock of a project: the registry afterwards, and whether the user holds the
lock at once. -/
def arrive (r : Registry ω) (user : ω) (project : Uuid) : Registry ω × Bool :=
  let (n, r) := r.lockFor project
  let (m, entered) := Mutex.join (r.lockAt n) user
  ({ r with
      made := r.made.set n m
      users := setCount r.users project ((r.users.lookup project).getD 0 + 1)
      tickets := r.tickets ++ [⟨user, project, n⟩] }, entered)

/-- A lock without one of its users, and who holds it in that user's place. -/
def Mutex.part (m : Mutex ω) (user : ω) : Mutex ω × Option ω :=
  if m.holder = some user then
    match m.queue with
    | [] => (⟨none, []⟩, none)
    | next :: queue => (⟨some next, queue⟩, some next)
  else ({ m with queue := m.queue.erase user }, none)

/-- A registry after one user of a project is gone; after the last one the project is no longer
in use. -/
def release (r : Registry ω) (project : Uuid) : Registry ω :=
  let n := (r.users.lookup project).getD 0 - 1
  if n = 0 then
    { r with
      registered := dropKey r.registered project
      users := dropKey r.users project }
  else { r with users := setCount r.users project n }

/-- A user leaves, from inside or out of the queue: the registry afterwards, and who enters in
that user's place. -/
def leave (r : Registry ω) (user : ω) : Registry ω × Option ω :=
  match r.ticket? user with
  | none => (r, none)
  | some t =>
    let (m, next) := Mutex.part (r.lockAt t.lock) user
    (({ r with
        made := r.made.set t.lock m
        tickets := r.tickets.filter (·.user != user) } : Registry ω).release t.project, next)

end Registry

end Agenda.Lock
