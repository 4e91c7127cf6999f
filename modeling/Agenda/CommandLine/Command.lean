import Agenda.CommandLine.Reading
import Agenda.Projects
import Agenda.Store.Session
import Agenda.Tasks

/-!
# Commands

The commands of the command line: their words, what each of them takes, and what it does.  A
command answers with the lines to print.  `Request.read` turns the words of a command line into a
command with its arguments, `perform` carries it out in a session of its own.
-/

namespace Agenda.CommandLine

inductive Command
  | addProject
  | listProjects
  | addTask
  | renameTask
  | moveTask
  | completeTask
  | reopenTask
  | removeTask
  | showTask
  | showTree
  deriving DecidableEq, Repr

namespace Command

def all : List Command :=
  [.addProject, .listProjects, .addTask, .renameTask, .moveTask, .completeTask, .reopenTask,
    .removeTask, .showTask, .showTree]

def word : Command → String
  | .addProject => "project-add"
  | .listProjects => "projects"
  | .addTask => "add"
  | .renameTask => "rename"
  | .moveTask => "move"
  | .completeTask => "done"
  | .reopenTask => "undo"
  | .removeTask => "rm"
  | .showTask => "show"
  | .showTree => "tree"

def ofWord? (s : String) : Option Command :=
  all.find? (·.word = s)

/-- The values that a command takes, in order. -/
def slots : Command → List Slot
  | .addProject => [.name]
  | .listProjects => []
  | .addTask => [.project, .name]
  | .renameTask => [.task, .name]
  | .moveTask => [.task, .place]
  | .completeTask | .reopenTask | .removeTask | .showTask => [.task]
  | .showTree => [.project]

def grammar (c : Command) : Grammar where
  flags := Flag.common ++ if c = .addTask then [⟨"--parent", .value .parent⟩] else []
  slots := c.slots

/-! ### What commands do -/

open Program

/-- An argument that a command cannot do without. -/
def need {α : Type} (slot : Slot) : Option α → Program α
  | some a => return a
  | none => fail (.absentArgument slot.word)

def projectNamed (name : Text) : Program Project := do
  match ← (ask (.projectNamed name) : Program (Option Project)) with
  | some p => return p
  | none => fail (.of (.noProjectNamed name))

/-- Creates a project.  A hollow name is no text and cannot be looked up. -/
def createProject (on : Occasion) : Argument Text → Program Project
  | .value name => Projects.create on name
  | name => do
    Projects.announce (name.shown id)
    let _ ← (ask (.projectNamed "") : Program (Option Project))
    fail .notBindable

/-- A task name that follows the rule; a hollow name is blank. -/
def checkedName : Argument Text → Program Text
  | .value name => ofExcept (Task.checkName name)
  | .hollow => fail (.of .blankTaskName)

/-- The parent of a new task, and why it is refused; a hollow argument is no identifier. -/
def parentOf : Option (Argument Uuid) → Option Uuid × List Field.Error
  | none => (none, [])
  | some (.value id) => (some id, [])
  | some .hollow => (none, [.at "parent_task_id" .notUuid Argument.nothing])

def createTask (on : Occasion) (name : Argument Text) (project : Uuid)
    (parent : Option (Argument Uuid)) : Program (Plan Task) := do
  Tasks.announce (name.shown id) project
    (parent.elim (Uuid.textOrNone none) (Argument.shown fun id => id.text))
  let name ← checkedName name
  let (parent, refused) := parentOf parent
  Tasks.validate (Task.create on name project parent) refused
  return Tasks.createNamed on name project parent

/-- Gives a task another name; a hollow name is blank. -/
def rename (id : Uuid) : Argument Text → Program Task
  | .value name => Tasks.rename id name
  | .hollow => fail (.of .blankTaskName)

/-- A place that is no number is compared with places. -/
def notANumber : Failure := .wrongKind "'<' not supported between instances of 'int' and 'list'"

/-- Puts a task at a place; a hollow place will do only for a task that needs none. -/
def move (id : Uuid) : Argument Int → Program (Plan Task)
  | .value place => Tasks.reorder id place
  | .hollow => Tasks.reorderBy id (Siblings.moveBy id fun _ => .error notANumber)

/-- What a command does with its arguments on an occasion; the result are the lines to print. -/
def program (on : Occasion) (a : Arguments) : Command → Program (List Text)
  | .addProject => do
    let p ← createProject on (← need .name a.name)
    return ["Created project '" ++ p.name ++ s!"' ({p.id.text})"]
  | .listProjects => do
    let projects ← (ask .allProjects : Program (List Project))
    return projects.map fun p => p.name ++ s!" ({p.id.text})"
  | .addTask => do
    let p ← projectNamed (← need .project a.project)
    let t ← Plan.alone (createTask on (← need .name a.name) p.id a.parent)
    return ["Created task '" ++ t.name ++ s!"' ({t.id.text}) at order {t.order}"]
  | .renameTask => do
    let t ← rename (← need .task a.task) (← need .name a.name)
    return [s!"Renamed task {t.id.text} to '" ++ t.name ++ "'"]
  | .moveTask => do
    let t ← Plan.alone (move (← need .task a.task) (← need .place a.place))
    return [s!"Task {t.id.text} is now at order {t.order}"]
  | .completeTask => do
    let t ← Plan.alone (Tasks.setStatus (← need .task a.task) .completed)
    return [s!"Completed task {t.id.text}"]
  | .reopenTask => do
    let t ← Plan.alone (Tasks.setStatus (← need .task a.task) .pending)
    return [s!"Task {t.id.text} is pending"]
  | .removeTask => do
    let id ← need .task a.task
    match ← Plan.alone (Tasks.delete id) with
    | none => return [s!"Task {id.text} does not exist, nothing deleted"]
    | some t => return ["Deleted task '" ++ t.name ++ s!"' ({t.id.text})"]
  | .showTask => do
    let tree ← Tasks.read (← need .task a.task) true
    return Outline.lines 0 [tree]
  | .showTree => do
    let p ← projectNamed (← need .project a.project)
    let trees ← Tasks.projectTree p.id
    return p.name :: Outline.lines 1 trees

end Command

/-- Carries out the command with a word in a session of its own, perhaps with a fault in it.  A
word that names no command is found out only when the session is over. -/
def perform (db : Database) (on : Occasion) (fault : Option Fault) (word : String)
    (a : Arguments) : Program.Run Database (List Text) :=
  match Command.ofWord? word with
  | some c =>
    let work := Session.Work.ofProgram on.now ((c.program on a).inject fault)
    let ran := db.inSession work
    ⟨ran.result.map (·.1), ran.store, ran.log⟩
  | none => ⟨.error (.badValue s!"Unknown command: {word}"), db, []⟩

/-! ### Requests -/

structure Request where
  command : Command
  arguments : Arguments
  deriving DecidableEq, Repr

/-- What may stand before the name of a command. -/
def leadingGrammar : Grammar := ⟨Flag.common ++ [⟨"--database-url", .value .databaseUrl⟩], []⟩

/-- Reads the words of a command line.  A word that was not understood makes the whole line wrong,
but only when nothing else ends the reading before. -/
def Request.read (words : List String) : Except Exit Request := do
  match leadingGrammar.markAll words with
  | none => .error .misuse
  | some marked =>
    let (a, understood, word, rest) ← Reading.leading marked .empty true
    match Command.ofWord? word with
    | none => .error .misuse
    | some c =>
      let r ← Reading.ofWords c.grammar a rest
      if understood && r.understood then .ok ⟨c, r.arguments⟩ else .error .misuse

end Agenda.CommandLine
