import Agenda.Field
import Agenda.Occasion
import Agenda.Status

/-!
# Tasks

A task as it is stored: it names its project and, unless it is a root, its parent.  Its `order` is
its place among its siblings, counted from zero in an undisturbed group.  A stored record may
hold any name and any order; `Task.errors` tells what a checked record would refuse.
-/

namespace Agenda

/-- A task, without the tasks below it. -/
structure Task where
  id : Uuid
  name : Text
  project : Uuid
  parent : Option Uuid
  status : Status
  order : Int
  created : Instant
  updated : Instant
  deriving DecidableEq, Repr, Inhabited

namespace Task

def isRoot (t : Task) : Bool := t.parent.isNone

def isCompleted (t : Task) : Bool := t.status = .completed

/-- A new pending task, created now. -/
def create (on : Occasion) (name : Text) (project : Uuid) (parent : Option Uuid) : Task :=
  ⟨on.freshId, name, project, parent, .pending, 0, on.now, on.now⟩

/-- The refused fields of a task. -/
def errors (t : Task) : List Field.Error :=
  ((NameRule.task.refusal? t.name).map fun why =>
      Field.Error.at "name" why (.plain (.text t.name))).toList ++
    (if t.order < 0 then [.at "order" .negative (.plain (.whole t.order))] else [])

/-- A name that a request may give to a task: not blank, and not longer than the rule allows. -/
def checkName (name : Text) : Except Problem Text :=
  if name.isBlankText then .error (.of .blankTaskName)
  else if name.length > NameRule.task.limit then
    .error (.of (.longTaskName NameRule.task.limit))
  else .ok name

def text (t : Task) : Text :=
  s!"Task(id={t.id.text}, name='" ++ t.name ++ s!"', status={t.status.text}, order={t.order}, " ++
    s!"parent_task_id={Uuid.textOrNone t.parent})"

end Task

end Agenda
