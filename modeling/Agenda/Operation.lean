import Agenda.Projects
import Agenda.Tasks

/-!
# Operations

What the library offers to its callers: projects, tasks, their trees, and the changes to them.
`Operation` lists the requests, `Answer` the forms of their answers; `Operation.plan` says what
each request does on an occasion.
-/

namespace Agenda

/-- What an operation answers. -/
inductive Answer
  | nothing
  | task (tree : Tree)
  | tasks (trees : List Tree)
  | project (project : Project)
  | projects (projects : List Project)
  | lines (lines : List Text)
  | text (text : Text)

namespace Answer

def ofTask (t : Task) : Answer := .task (.leaf t)

def ofTasks (ts : List Task) : Answer := .tasks (ts.map Tree.leaf)

def ofTask? : Option Task → Answer
  | some t => .ofTask t
  | none => .nothing

def ofProject? : Option Project → Answer
  | some p => .project p
  | none => .nothing

end Answer

/-- A request to the library. -/
inductive Operation
  | createProject (name : Text)
  | project (id : Uuid)
  | projectNamed (name : Text)
  | projects
  | createTask (name : Text) (project : Uuid) (parent : Option Uuid)
  | task (id : Uuid) (withSubtasks : Bool)
  | tasks
  | projectTasks (project : Uuid)
  | projectTree (project : Uuid)
  | subtasks (id : Uuid) (deep : Bool)
  | search (project : Uuid) (status : Scalar)
  | rename (id : Uuid) (name : Text)
  | reorder (id : Uuid) (place : Int)
  | setStatus (id : Uuid) (status : Scalar)
  | complete (id : Uuid)
  | reopen (id : Uuid)
  | delete (id : Uuid)
  deriving DecidableEq, Repr

/-- What an operation does on an occasion. -/
def Operation.plan (on : Occasion) : Operation → Program (Plan Answer)
  | .createProject name => Plan.ofProgram (Answer.project <$> Projects.create on name)
  | .project id => Plan.ofProgram (Answer.project <$> Program.ask (.project id))
  | .projectNamed name => Plan.ofProgram (Answer.ofProject? <$> Program.ask (.projectNamed name))
  | .projects => Plan.ofProgram (Answer.projects <$> Program.ask .allProjects)
  | .createTask name home parent => Plan.map .ofTask (Tasks.create on name home parent)
  | .task id withSubtasks => Plan.ofProgram (Answer.task <$> Tasks.read id withSubtasks)
  | .tasks => Plan.ofProgram (Answer.ofTasks <$> Program.ask .allTasks)
  | .projectTasks id => Plan.ofProgram (Answer.ofTasks <$> Tasks.projectTasks id)
  | .projectTree id => Plan.ofProgram (Answer.tasks <$> Tasks.projectTree id)
  | .subtasks id deep => Plan.ofProgram (Answer.ofTasks <$> Tasks.subtasks id deep)
  | .search id status => Plan.ofProgram (Answer.ofTasks <$> Tasks.search id status)
  | .rename id name => Plan.ofProgram (Answer.ofTask <$> Tasks.rename id name)
  | .reorder id place => Plan.map .ofTask (Tasks.reorder id place)
  | .setStatus id word =>
    Plan.map .ofTask ((Program.ofExcept (Status.read word)).bind (Tasks.setStatus id))
  | .complete id => Plan.map .ofTask (Tasks.setStatus id .completed)
  | .reopen id => Plan.map .ofTask (Tasks.setStatus id .pending)
  | .delete id => Plan.map .ofTask? (Tasks.delete id)

end Agenda
