import Agenda.Sorting
import Agenda.Store.Row

/-!
# The database: records in tables

The same requests as the catalog's, answered from tables of rows.  A row is checked whenever it
turns into a record, so reading can fail; a write that holds a number too large for a column or
a name that cannot be written fails as a whole, and so does a look for such a name.  The tasks below
a task are found by a walk whose stack holds loaded tasks and starts from the children.
-/

namespace Agenda

/-- The tables of projects and tasks, rows in the order in which they were added. -/
structure Database where
  projects : List Store.ProjectRow
  tasks : List Store.TaskRow
  deriving DecidableEq, Repr, Inhabited

namespace Database

open Store

def empty : Database := ⟨[], []⟩

/-! ### Tasks -/

def findRow? (db : Database) (id : Uuid) : Option TaskRow :=
  db.tasks.find? (·.id = id.text)

def row (db : Database) (id : Uuid) : Except Failure TaskRow :=
  match db.findRow? id with
  | some r => .ok r
  | none => .error (.of (.noTask id))

/-- The tasks of the rows that pass a test, in ascending order of a key. -/
def select (db : Database) (key : TaskRow → Int) (test : TaskRow → Bool) :
    Except Failure (List Task) :=
  (sortOn key (db.tasks.filter test)).mapM TaskRow.load

/-- The tasks that name a parent, in ascending order. -/
def children (db : Database) (id : Uuid) : Except Failure (List Task) :=
  db.select (·.order) (·.parent = some id.text)

/-- Takes up to a number of tasks off a stack and lists them. -/
def descendants.go (db : Database) : Nat → List Task → Except Failure (List Task)
  | 0, _ => .ok []
  | _ + 1, [] => .ok []
  | n + 1, t :: pending => do
    let below ← db.children t.id
    let rest ← descendants.go db n (below ++ pending)
    return t :: rest

/-- The tasks below a task, each before the tasks below it. -/
def descendants (db : Database) (id : Uuid) : Except Failure (List Task) := do
  let top ← db.children id
  descendants.go db db.tasks.length top

def modify (db : Database) (id : Uuid) (f : TaskRow → TaskRow) : Database :=
  { db with tasks := db.tasks.map fun r => if r.id = id.text then f r else r }

def addTask (db : Database) (t : Task) : Except Failure Unit × Database :=
  if (db.findRow? t.id).isSome then (.error (.of (.taskExists t.id)), db)
  else if !t.name.isWritable then (.error (.unwritable t.name), db)
  else if fitsColumn t.order then
    (.ok (), { db with tasks := db.tasks ++ [.ofTask t] })
  else (.error .overflow, db)

/-- Changes the row of a stored task, and answers with the row as it then is. -/
def change (db : Database) (id : Uuid) (f : TaskRow → TaskRow) :
    Except Failure TaskRow × Database :=
  match db.row id with
  | .ok r => (.ok (f r), db.modify id f)
  | .error e => (.error e, db)

/-- Gives a stored task another name, and answers with the task. -/
def rename (now : Instant) (id : Uuid) (name : Text) (db : Database) :
    Except Failure Task × Database :=
  if (db.findRow? id).isSome && !name.isWritable then (.error (.unwritable name), db)
  else
    let (reply, db) := db.change id fun r => { r with name := name, updated := now }
    (reply.bind TaskRow.load, db)

/-- The first identifier of a list that is not stored. -/
def firstMissing? (db : Database) (ids : List Uuid) : Option Uuid :=
  ids.find? fun id => (db.findRow? id).isNone

/-- Gives tasks other places, unless one of them is not stored.  Of several places for one task
the last one counts. -/
def setOrders (now : Instant) (orders : List (Uuid × Int)) (db : Database) :
    Except Failure Unit × Database :=
  match db.firstMissing? (orders.map (·.1)) with
  | some id => (.error (.of (.noTask id)), db)
  | none =>
    let written := orders.foldl
      (fun db (id, order) => db.modify id fun r => { r with order := order, updated := now }) db
    if written.tasks.all (fitsColumn ·.order) then (.ok (), written) else (.error .overflow, db)

def remove (db : Database) (id : Uuid) : Except Failure Task × Database :=
  match db.row id with
  | .error e => (.error e, db)
  | .ok r =>
    match r.load with
    | .error e => (.error e, db)
    | .ok t => (.ok t, { db with tasks := db.tasks.filter (·.id != id.text) })

/-! ### Projects -/

/-- The row of a project, if it is stored. -/
def findProjectRow? (db : Database) (id : Uuid) : Option ProjectRow :=
  db.projects.find? (·.id = id.text)

/-- The row of the project with a name, if it is stored. -/
def projectRowNamed? (db : Database) (name : Text) : Option ProjectRow :=
  db.projects.find? (·.name = name)

/-- The project with a name, if it is stored. -/
def projectNamed (db : Database) (name : Text) : Except Failure (Option Project) :=
  if !name.isWritable then .error (.unwritable name)
  else
    match db.projectRowNamed? name with
    | none => .ok none
    | some r => r.load.map some

def addProject (db : Database) (p : Project) : Except Failure Unit × Database :=
  if (db.findProjectRow? p.id).isSome then (.error (.of (.projectExists p.id)), db)
  else
    match db.projectNamed p.name with
    | .error e => (.error e, db)
    | .ok (some _) => (.error (.of (.projectNameTaken p.name)), db)
    | .ok none => (.ok (), { db with projects := db.projects ++ [.ofProject p] })

/-- Adds the row of a project without a look at what is stored; the table itself refuses a row
that repeats an identifier or a name. -/
def insertProject (db : Database) (r : ProjectRow) : Except Failure Unit × Database :=
  if !r.name.isWritable then (.error (.unwritable r.name), db)
  else if db.projects.any fun q => q.id = r.id || q.name = r.name then (.error .duplicateRow, db)
  else (.ok (), { db with projects := db.projects ++ [r] })

/-! ### Requests -/

/-- Answers with what depends on a stored task. -/
def about {α : Type} (db : Database) (id : Uuid) (answer : Except Failure α) :
    Except Failure α × Database :=
  ((db.row id).bind fun _ => answer, db)

def answer (now : Instant) : (call : Call) → Database → Except Failure call.Reply × Database
  | .addTask t, db => db.addTask t
  | .task id, db => ((db.row id).bind TaskRow.load, db)
  | .children id, db => db.about id (db.children id)
  | .descendants id, db => db.about id (db.descendants id)
  | .roots project, db =>
    (db.select (·.order) fun r => r.project = project.text && r.parent.isNone, db)
  | .tasksOf project, db => (db.select (·.created.micros) (·.project = project.text), db)
  | .tasksWith project status, db =>
    (db.select (·.created.micros) fun r => r.project = project.text && r.status = status.text, db)
  | .allTasks, db => (db.select (·.created.micros) fun _ => true, db)
  | .rename id name, db => db.rename now id name
  | .setOrders orders, db => db.setOrders now orders
  | .setStatus id status, db =>
    let (reply, db) := db.change id fun r => { r with status := status.text, updated := now }
    (reply.map fun _ => (), db)
  | .remove id, db => db.remove id
  | .addProject p, db => db.addProject p
  | .project id, db =>
    (match db.findProjectRow? id with
      | some r => r.load
      | none => .error (.of (.noProject id)), db)
  | .projectNamed name, db => (db.projectNamed name, db)
  | .allProjects, db => ((sortOn (·.created.micros) db.projects).mapM ProjectRow.load, db)

/-- A project with a new identifier is added only after a look for its name. -/
def further : Call → Database → Option Method
  | .addProject p, db => if (db.findProjectRow? p.id).isSome then none else some .projectNamed
  | _, _ => none

/-- What is logged when a request succeeds. -/
def remarks : Call → List Log.Record
  | .addTask t => [Log.Component.sqlStore.record .debug s!"Inserted task row {t.id.text}"]
  | .setOrders orders =>
    [Log.Component.sqlStore.record .debug s!"Batch updated order of {orders.length} tasks"]
  | _ => []

end Database

end Agenda
