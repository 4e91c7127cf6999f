import Agenda.Lock.Registry

/-!
# Workers

Workers that use the locks of a registry, driven from outside.  A worker arrives for a project,
enters when it holds the lock, and stays inside until it is told to finish, told to fail, or
cancelled.  An order to finish or fail that reaches a waiting worker is kept and takes effect when
the worker enters, the first such order winning; a cancellation takes effect at once.  After every
step everything runs on until nothing moves, and the step reports what happened.
-/

namespace Agenda.Lock

variable {ω : Type} [DecidableEq ω]

/-- What a worker inside can be told. -/
inductive Order
  | finish
  | fail
  deriving DecidableEq, Repr

/-- What happens to a worker. -/
inductive Happening
  | enter
  | exit
  | failed
  | cancelled
  deriving DecidableEq, Repr

def Happening.text : Happening → String
  | .enter => "enter"
  | .exit => "exit"
  | .failed => "failed"
  | .cancelled => "cancelled"

/-- What a worker does on an order. -/
def Order.happening : Order → Happening
  | .finish => .exit
  | .fail => .failed

/-- A worker and what happens to it. -/
abbrev Event (ω : Type) := ω × Happening

/-- What is done to a worker from outside. -/
inductive Step (ω : Type)
  | start (worker : ω) (project : Uuid)
  | order (worker : ω) (order : Order)
  | cancel (worker : ω)
  deriving Repr

/-- The registry and the orders that wait for workers to enter. -/
structure Workers (ω : Type) where
  registry : Registry ω
  orders : List (ω × Order)
  deriving Repr

namespace Workers

def empty : Workers ω := ⟨.empty, []⟩

/-- Forgets the orders for a worker. -/
def dropOrders (w : Workers ω) (worker : ω) : Workers ω :=
  { w with orders := w.orders.filter (·.1 != worker) }

/-- A worker that has just got its lock enters, and leaves at once if an order waits for it; then
the next one enters, and so on for a number of workers. -/
def enter : Nat → Option ω → Workers ω → Workers ω × List (Event ω)
  | _, none, w => (w, [])
  | 0, some worker, w => (w, [(worker, .enter)])
  | n + 1, some worker, w =>
    match w.orders.lookup worker with
    | none => (w, [(worker, .enter)])
    | some order =>
      let (registry, next) := w.registry.leave worker
      let (w, events) := enter n next (({ w with registry := registry }).dropOrders worker)
      (w, (worker, .enter) :: (worker, order.happening) :: events)

/-- A worker leaves, and whoever gets its lock enters. -/
def quit (w : Workers ω) (worker : ω) (how : Happening) : Workers ω × List (Event ω) :=
  let (registry, next) := w.registry.leave worker
  let (w, events) :=
    enter w.registry.tickets.length next (({ w with registry := registry }).dropOrders worker)
  (w, (worker, how) :: events)

/-- One step and everything that follows from it.  Steps for workers that have not arrived or have
ended do nothing, and neither does a second arrival. -/
def step (w : Workers ω) : Step ω → Workers ω × List (Event ω)
  | .start worker project =>
    if (w.registry.ticket? worker).isSome then (w, [])
    else
      let (registry, entered) := w.registry.arrive worker project
      ({ w with registry := registry }, if entered then [(worker, .enter)] else [])
  | .order worker order =>
    if w.registry.isInside worker then w.quit worker order.happening
    else if (w.registry.ticket? worker).isSome && (w.orders.lookup worker).isNone then
      ({ w with orders := w.orders ++ [(worker, order)] }, [])
    else (w, [])
  | .cancel worker =>
    if (w.registry.ticket? worker).isSome then w.quit worker .cancelled else (w, [])

/-- The workers after some steps. -/
def run (w : Workers ω) (steps : List (Step ω)) : Workers ω :=
  steps.foldl (fun w s => (w.step s).1) w

/-- The workers after all of them are cancelled, in the order of their arrival. -/
def cancelAll (w : Workers ω) : Workers ω :=
  w.run (w.registry.tickets.map fun t => .cancel t.user)

end Workers

end Agenda.Lock
