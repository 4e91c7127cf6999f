import Agenda.Failure
import Agenda.Log.Record
import Agenda.Project
import Agenda.Task.Basic

/-!
# Store calls

Everything that the task tree asks of the place where its records are kept, as data: a `Call` is a
request with its arguments, `Call.Reply` the type of its answer.  `Backend` is what such a place
has to supply; the log records that belong to a call are listed apart from its effect, so that
two backends can agree on answers and records and still differ in what they log.
-/

namespace Agenda.Store

/-- A request to the place where records are kept. -/
inductive Call
  /-- Store a new task. -/
  | addTask (task : Task)
  /-- The task with an identifier. -/
  | task (id : Uuid)
  /-- The children of a stored task, in ascending order. -/
  | children (id : Uuid)
  /-- All tasks below a stored task, each before the tasks below it. -/
  | descendants (id : Uuid)
  /-- The root tasks of a project, in ascending order. -/
  | roots (project : Uuid)
  /-- The tasks of a project, oldest first. -/
  | tasksOf (project : Uuid)
  /-- The tasks of a project with a status, oldest first. -/
  | tasksWith (project : Uuid) (status : Status)
  /-- All tasks, oldest first. -/
  | allTasks
  /-- Give a task another name; the answer is the task. -/
  | rename (id : Uuid) (name : Text)
  /-- Give tasks other places among their siblings, all of them or none. -/
  | setOrders (orders : List (Uuid × Int))
  /-- Give a task a status. -/
  | setStatus (id : Uuid) (status : Status)
  /-- Remove a task; the answer is the task. -/
  | remove (id : Uuid)
  /-- Store a new project. -/
  | addProject (project : Project)
  /-- The project with an identifier. -/
  | project (id : Uuid)
  /-- The project with a name, if there is one. -/
  | projectNamed (name : Text)
  /-- All projects, oldest first. -/
  | allProjects

/-- The answer to a request. -/
abbrev Call.Reply : Call → Type
  | .addTask _ => Unit
  | .task _ => Task
  | .children _ => List Task
  | .descendants _ => List Task
  | .roots _ => List Task
  | .tasksOf _ => List Task
  | .tasksWith .. => List Task
  | .allTasks => List Task
  | .rename .. => Task
  | .setOrders _ => Unit
  | .setStatus .. => Unit
  | .remove _ => Task
  | .addProject _ => Unit
  | .project _ => Project
  | .projectNamed _ => Option Project
  | .allProjects => List Project

/-- The kinds of requests. -/
inductive Method
  | addTask
  | task
  | children
  | descendants
  | roots
  | tasksOf
  | tasksWith
  | allTasks
  | rename
  | setOrders
  | setStatus
  | remove
  | addProject
  | project
  | projectNamed
  | allProjects
  deriving DecidableEq, Repr

/-- The kind of a request. -/
def Call.method : Call → Method
  | .addTask _ => .addTask
  | .task _ => .task
  | .children _ => .children
  | .descendants _ => .descendants
  | .roots _ => .roots
  | .tasksOf _ => .tasksOf
  | .tasksWith .. => .tasksWith
  | .allTasks => .allTasks
  | .rename .. => .rename
  | .setOrders _ => .setOrders
  | .setStatus .. => .setStatus
  | .remove _ => .remove
  | .addProject _ => .addProject
  | .project _ => .project
  | .projectNamed _ => .projectNamed
  | .allProjects => .allProjects

/-- A place where records are kept, with states of type `σ`. -/
class Backend (σ : Type) where
  /-- Answers a request at a time and moves to the next state. -/
  answer : Instant → (call : Call) → σ → Except Failure call.Reply × σ
  /-- What is logged when a request succeeds. -/
  remarks : Call → List Log.Record
  /-- The kind of the further request that the place makes of itself to answer a request. -/
  further : Call → σ → Option Method
  /-- The number of stored tasks. -/
  size : σ → Nat

end Agenda.Store
