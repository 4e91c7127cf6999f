import Agenda.Scalar
import Agenda.Uuid

/-!
# Problems

What can be wrong with a request, as causes.  A `Problem` is a reason and the operations that met
it, outermost first; its class and its message are functions of these.  Every reason falls into
one of the classes of `Problem.Kind`, and putting a problem into a context changes its message
only: `kind_inContext` is the law that lets callers tell problems apart at any depth.
-/

namespace Agenda

namespace Problem

/-- The classes of problems.  `general` is the class of all, and `notFound` the class of a missing
task or project. -/
inductive Kind
  | general
  | notFound
  | taskNotFound
  | projectNotFound
  | alreadyExists
  | invalid
  deriving DecidableEq, Repr

/-- The classes, each after the classes that contain it. -/
def Kind.all : List Kind :=
  [.general, .notFound, .taskNotFound, .projectNotFound, .alreadyExists, .invalid]

/-- A problem of the first class is one of the second. -/
def Kind.isA : Kind → Kind → Bool
  | _, .general => true
  | .taskNotFound, .notFound => true
  | .projectNotFound, .notFound => true
  | a, b => a == b

/-- Why a request is refused. -/
inductive Reason
  /-- A task name is empty or holds blanks only. -/
  | blankTaskName
  /-- A task name is longer than a limit. -/
  | longTaskName (limit : Nat)
  /-- A word names no status. -/
  | unknownStatus (word : Scalar)
  /-- No task has this identifier. -/
  | noTask (id : Uuid)
  /-- No project has this identifier. -/
  | noProject (id : Uuid)
  /-- No project has this name. -/
  | noProjectNamed (name : Text)
  /-- A task with this identifier is stored already. -/
  | taskExists (id : Uuid)
  /-- A project with this identifier is stored already. -/
  | projectExists (id : Uuid)
  /-- A project with this name is stored already. -/
  | projectNameTaken (name : Text)
  /-- A project name is refused, for the reason told in words. -/
  | badProjectName (name : Text) (why : String)
  /-- The parent of a task is in a project other than the task's. -/
  | foreignParent (parent home wanted : Uuid)
  /-- Something outside reports a problem of a class in words of its own. -/
  | reported (kind : Kind) (message : Text)
  deriving DecidableEq, Repr

namespace Reason

def kind : Reason → Kind
  | .blankTaskName | .longTaskName _ | .unknownStatus _ | .badProjectName .. | .foreignParent .. =>
    .invalid
  | .noTask _ => .taskNotFound
  | .noProject _ | .noProjectNamed _ => .projectNotFound
  | .taskExists _ | .projectExists _ | .projectNameTaken _ => .alreadyExists
  | .reported kind _ => kind

def message : Reason → Text
  | .blankTaskName => "Task name cannot be blank"
  | .longTaskName limit => s!"Task name cannot exceed {limit} characters"
  | .unknownStatus word => s!"Invalid task status: {word.shown}"
  | .noTask id => s!"Task with id {id.text} not found"
  | .noProject id => s!"Project with id {id.text} not found"
  | .noProjectNamed name => "Project '" ++ name ++ "' not found"
  | .taskExists id => s!"Task with id {id.text} already exists"
  | .projectExists id => s!"Project with id {id.text} already exists"
  | .projectNameTaken name => "Project with name '" ++ name ++ "' already exists"
  | .badProjectName name why => s!"Invalid project name {name.quoted}: {why}"
  | .foreignParent parent home wanted =>
    s!"Parent task {parent.text} belongs to project {home.text}, not {wanted.text}"
  | .reported _ message => message

end Reason

/-- The operation that met a problem. -/
inductive Context
  | creatingTask (name : Text)
  | deletingTask (id : Uuid)
  | fetchingSiblings (id : Uuid)
  | reorderingTask (id : Uuid)
  | renamingTask (id : Uuid)
  | updatingStatus (id : Uuid)
  /-- An operation named from outside. -/
  | named (words : Text)
  deriving DecidableEq, Repr

def Context.text : Context → Text
  | .creatingTask name => "Could not create task '" ++ name ++ "'"
  | .deletingTask id => s!"Failed to delete task {id.text}"
  | .fetchingSiblings id => s!"Failed to fetch siblings of task {id.text}"
  | .reorderingTask id => s!"Failed to reorder task {id.text}"
  | .renamingTask id => s!"Could not rename task {id.text}"
  | .updatingStatus id => s!"Could not update status of task {id.text}"
  | .named words => words

end Problem

/-- A reason, and the operations that met it, outermost first. -/
structure Problem where
  reason : Problem.Reason
  contexts : List Problem.Context
  deriving DecidableEq, Repr

namespace Problem

/-- A problem that no operation has met yet. -/
def of (reason : Reason) : Problem := ⟨reason, []⟩

def kind (p : Problem) : Kind := p.reason.kind

/-- The problem as the operation around it reports it. -/
def inContext (c : Context) (p : Problem) : Problem := ⟨p.reason, c :: p.contexts⟩

/-- A problem in words: the contexts and the reason, with colons between them. -/
def message (p : Problem) : Text :=
  p.contexts.foldr (fun c rest => c.text ++ ": " ++ rest) p.reason.message

/-- The message of the problem that the outermost operation reports on. -/
def innerMessage? (p : Problem) : Option Text :=
  match p.contexts with
  | [] => none
  | _ :: inner => some (message ⟨p.reason, inner⟩)

/-- A context leaves the class as it is. -/
@[simp] theorem kind_inContext (c : Context) (p : Problem) : (p.inContext c).kind = p.kind := rfl

/-- The message in a context is the context, a colon and the message. -/
theorem message_inContext (c : Context) (p : Problem) :
    (p.inContext c).message = c.text ++ ": " ++ p.message := rfl

end Problem

end Agenda
