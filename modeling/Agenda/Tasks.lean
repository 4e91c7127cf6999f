import Agenda.Engine.Completion
import Agenda.Engine.Siblings
import Agenda.Plan
import Agenda.Task.Tree

/-!
# Working with tasks

The requests about tasks, as plans where they change a tree and as plain programs where they do
not.  They check what lies across groups of siblings, which the engines leave to them: that the
project of a new task is stored, and that its parent lives in the same project.  Problems that an
engine meets are reported in the log and, for most requests, in the context of the request.
-/

namespace Agenda.Tasks

open Program

/-- Where the log entries about tasks come from. -/
def say (level : Log.Level) (message : Text) : Program Unit :=
  log .tasks level message

/-- A program that may have its problems reported in the log, and then goes on with the failure. -/
def reporting {α : Type} (kind : Problem.Kind) (lead : Text) (p : Program α) : Program α :=
  p.handle fun e =>
    if e.isProblem kind then do
      say .error (lead ++ ": " ++ e.message)
      fail e
    else fail e

/-! ### Creating tasks -/

/-- Checks that the project of a new task is stored, and its parent in the same project. -/
def checkHome (project : Uuid) (parent : Option Uuid) : Program Unit := do
  let _ ← (ask (.project project) : Program Project)
  match parent with
  | none => return ()
  | some id =>
    let above ← (ask (.task id) : Program Task)
    if above.project = project then return ()
    else fail (.of (.foreignParent above.id above.project project))

/-- What is logged before a task is created. -/
def announce (name : Text) (project : Uuid) (parent : Text) : Program Unit :=
  say .debug <|
    "Creating task: name='" ++ name ++ s!"', project_id={project.text}, parent_task_id=" ++ parent

/-- Goes on with a task, unless its fields are refused; some of them may be refused already. -/
def validate (t : Task) (refused : List Field.Error) : Program Unit :=
  match t.errors ++ refused with
  | [] => return ()
  | errors => fail (.refused "Task" errors)

/-- Creates a task with a name that is checked already behind its siblings. -/
def createNamed (on : Occasion) (name : Text) (project : Uuid) (parent : Option Uuid) :
    Plan Task :=
  .exclusive project do
    inContext (.creatingTask name)
      (reporting .general "Could not validate task" (checkHome project parent))
    let t ← Siblings.append (Task.create on name project parent)
    say .info (s!"Created task: id={t.id.text}, name='" ++ name ++ s!"', order={t.order}")
    return t

/-- Creates a task behind its siblings.  The rule for requests lets a name pass that the task
itself refuses: one that cannot be written. -/
def create (on : Occasion) (name : Text) (project : Uuid) (parent : Option Uuid) :
    Program (Plan Task) := do
  announce name project (Uuid.textOrNone parent)
  let name ← ofExcept (Task.checkName name)
  validate (Task.create on name project parent) []
  return createNamed on name project parent

/-- Stores a task as it is, unchecked.  What is below it in the tree is not stored with it. -/
def put (t : Tree) : Program Unit := ask (.addTask t.task)

/-! ### Reading -/

/-- A task with everything below it. -/
def expand (t : Task) : Program Tree := do
  let below ← (ask (.descendants t.id) : Program (List Task))
  return .assemble t below

/-- A task, alone or with everything below it. -/
def read (id : Uuid) (withSubtasks : Bool) : Program Tree := do
  let t ← (ask (.task id) : Program Task)
  if withSubtasks then expand t else return .leaf t

/-- The root tasks of a stored project, with everything below them. -/
def projectTree (project : Uuid) : Program (List Tree) := do
  let _ ← (ask (.project project) : Program Project)
  let roots ← (ask (.roots project) : Program (List Task))
  roots.mapM expand

/-- The tasks of a stored project. -/
def projectTasks (project : Uuid) : Program (List Task) := do
  let _ ← (ask (.project project) : Program Project)
  ask (.tasksOf project)

/-- The tasks of a stored project that have the status a word names. -/
def search (project : Uuid) (word : Scalar) : Program (List Task) := do
  let status ← ofExcept (Status.read word)
  let _ ← (ask (.project project) : Program Project)
  ask (.tasksWith project status)

/-- The children of a task, or everything below it. -/
def subtasks (id : Uuid) (deep : Bool) : Program (List Task) :=
  if deep then ask (.descendants id) else ask (.children id)

/-! ### Changing tasks -/

def rename (id : Uuid) (name : Text) : Program Task := do
  let name ← ofExcept (Task.checkName name)
  let t ← inContext (.renamingTask id)
    (reporting .general s!"Failed to rename task {id.text}" (ask (.rename id name)))
  say .info (s!"Renamed task: id={id.text}, name='" ++ name ++ "'")
  return t

/-- Gives a task a place among its siblings in the way of a given program. -/
def reorderBy (id : Uuid) (move : Program Task) : Program (Plan Task) := do
  let t ← (ask (.task id) : Program Task)
  return .exclusive t.project do
    let t ← reporting .notFound s!"Failed to reorder task {id.text}" move
    say .info s!"Reordered task: id={id.text}, order={t.order}"
    return t

/-- Puts a task at another place among its siblings. -/
def reorder (id : Uuid) (place : Int) : Program (Plan Task) :=
  reorderBy id (Siblings.move id place)

def setStatus (id : Uuid) (status : Status) : Program (Plan Task) := do
  let t ← (ask (.task id) : Program Task)
  return .exclusive t.project do
    let t ← inContext (.updatingStatus id)
      (reporting .general s!"Failed to set task {id.text} to {status.text}"
        (Completion.set id status))
    say .info s!"Task status updated: id={id.text}, status={status.text}"
    return t

/-- Removes a task with everything below it, if there is such a task. -/
def delete (id : Uuid) : Program (Plan (Option Task)) := do
  match ← Siblings.find id
      (say .warning s!"Task {id.text} does not exist, nothing to do") with
  | none => return .settled none
  | some t =>
    return .exclusive t.project do
      let removed ← Siblings.remove id
      match removed with
      | none => return none
      | some t =>
        say .info (s!"Deleted task: id={id.text}, name='" ++ t.name ++ "'")
        return some t

end Agenda.Tasks
