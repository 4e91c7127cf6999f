import Agenda.Store.Call
import Agenda.Task.Tree

/-!
# The catalog: records in memory

Projects and tasks in the order in which they were added, with nothing between a record and its
reader.  The tasks below a task are found by a walk with a stack of pending tasks, the next one on
top: taking a task off puts its children on, the first child on top.  The walk starts from the
task itself and leaves it out.
-/

namespace Agenda

/-- Projects and tasks kept in memory, in the order in which they were added. -/
structure Catalog where
  projects : List Project
  tasks : List Task
  deriving DecidableEq, Repr, Inhabited

namespace Catalog

def empty : Catalog := ⟨[], []⟩

/-! ### Tasks -/

def find? (c : Catalog) (id : Uuid) : Option Task :=
  c.tasks.find? (·.id = id)

def task (c : Catalog) (id : Uuid) : Except Failure Task :=
  match c.find? id with
  | some t => .ok t
  | none => .error (.of (.noTask id))

/-- The children of a task, in ascending order. -/
def children (c : Catalog) (id : Uuid) : List Task :=
  Tree.childrenIn c.tasks id

/-- The root tasks of a project, in ascending order. -/
def roots (c : Catalog) (project : Uuid) : List Task :=
  sortOn (·.order) (c.tasks.filter fun t => t.project = project && t.parent.isNone)

/-- Takes up to a number of tasks off a stack, and lists all of them but the one where the walk
started. -/
def descendants.go (c : Catalog) (start : Uuid) : Nat → List Uuid → List Task
  | 0, _ => []
  | _ + 1, [] => []
  | n + 1, id :: pending =>
    (if id = start then [] else (c.find? id).toList) ++
      descendants.go c start n ((c.children id).map (·.id) ++ pending)

/-- The tasks below a task, each before the tasks below it. -/
def descendants (c : Catalog) (id : Uuid) : List Task :=
  descendants.go c id c.tasks.length [id]

/-- Tasks, oldest first. -/
def byAge (tasks : List Task) : List Task :=
  sortOn (·.created.micros) tasks

/-- The tasks of a project, oldest first. -/
def tasksOf (c : Catalog) (project : Uuid) : List Task :=
  byAge (c.tasks.filter (·.project = project))

def modify (c : Catalog) (id : Uuid) (f : Task → Task) : Catalog :=
  { c with tasks := c.tasks.map fun t => if t.id = id then f t else t }

def addTask (c : Catalog) (t : Task) : Except Failure Unit × Catalog :=
  if (c.find? t.id).isSome then (.error (.of (.taskExists t.id)), c)
  else (.ok (), { c with tasks := c.tasks ++ [t] })

/-- Changes a stored task, and answers with it as it then is. -/
def change (c : Catalog) (id : Uuid) (f : Task → Task) : Except Failure Task × Catalog :=
  match c.task id with
  | .ok t => (.ok (f t), c.modify id f)
  | .error e => (.error e, c)

/-- The first identifier of a list that is not stored. -/
def firstMissing? (c : Catalog) (ids : List Uuid) : Option Uuid :=
  ids.find? fun id => (c.find? id).isNone

/-- Gives tasks other places, unless one of them is not stored.  Of several places for one task
the last one counts. -/
def setOrders (now : Instant) (orders : List (Uuid × Int)) (c : Catalog) :
    Except Failure Unit × Catalog :=
  match c.firstMissing? (orders.map (·.1)) with
  | some id => (.error (.of (.noTask id)), c)
  | none =>
    (.ok (), orders.foldl
      (fun c (id, order) => c.modify id fun t => { t with order := order, updated := now }) c)

def remove (c : Catalog) (id : Uuid) : Except Failure Task × Catalog :=
  match c.task id with
  | .ok t => (.ok t, { c with tasks := c.tasks.filter (·.id != id) })
  | .error e => (.error e, c)

/-! ### Projects -/

def findProject? (c : Catalog) (id : Uuid) : Option Project :=
  c.projects.find? (·.id = id)

def projectNamed? (c : Catalog) (name : Text) : Option Project :=
  c.projects.find? (·.name = name)

def addProject (c : Catalog) (p : Project) : Except Failure Unit × Catalog :=
  if (c.findProject? p.id).isSome then (.error (.of (.projectExists p.id)), c)
  else if (c.projectNamed? p.name).isSome then (.error (.of (.projectNameTaken p.name)), c)
  else (.ok (), { c with projects := c.projects ++ [p] })

/-! ### Requests -/

/-- Answers with what depends on a stored task. -/
def about {α : Type} (c : Catalog) (id : Uuid) (answer : α) : Except Failure α × Catalog :=
  ((c.task id).map fun _ => answer, c)

def answer (now : Instant) : (call : Store.Call) → Catalog → Except Failure call.Reply × Catalog
  | .addTask t, c => c.addTask t
  | .task id, c => (c.task id, c)
  | .children id, c => c.about id (c.children id)
  | .descendants id, c => c.about id (c.descendants id)
  | .roots project, c => (.ok (c.roots project), c)
  | .tasksOf project, c => (.ok (c.tasksOf project), c)
  | .tasksWith project status, c => (.ok ((c.tasksOf project).filter (·.status = status)), c)
  | .allTasks, c => (.ok (byAge c.tasks), c)
  | .rename id name, c => c.change id fun t => { t with name := name, updated := now }
  | .setOrders orders, c => c.setOrders now orders
  | .setStatus id status, c =>
    let (reply, c) := c.change id fun t => { t with status := status, updated := now }
    (reply.map fun _ => (), c)
  | .remove id, c => c.remove id
  | .addProject p, c => c.addProject p
  | .project id, c =>
    (match c.findProject? id with
      | some p => .ok p
      | none => .error (.of (.noProject id)), c)
  | .projectNamed name, c => (.ok (c.projectNamed? name), c)
  | .allProjects, c => (.ok (sortOn (·.created.micros) c.projects), c)

/-- The tasks with a status are picked from the tasks of the project. -/
def further : Store.Call → Catalog → Option Store.Method
  | .tasksWith .., _ => some .tasksOf
  | _, _ => none

/-- What is logged when a request succeeds. -/
def remarks : Store.Call → List Log.Record
  | .addTask t => [Log.Component.memoryStore.record .debug s!"Stored task {t.id.text} in memory"]
  | _ => []

instance : Store.Backend Catalog where
  answer := answer
  remarks := remarks
  further := further
  size c := c.tasks.length

end Catalog

end Agenda
