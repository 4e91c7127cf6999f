import Agenda.Text.Basic

/-!
# Log records

What a component has to say about its work.  A record has a level, the name of the component, and
a message.  Levels are numbers, so that levels without a name of their own exist.
-/

namespace Agenda.Log

/-- How grave a record is; greater is graver. -/
structure Level where
  value : Int
  deriving DecidableEq, Repr, Inhabited

namespace Level

def debug : Level := ⟨10⟩
def info : Level := ⟨20⟩
def warning : Level := ⟨30⟩
def error : Level := ⟨40⟩
def critical : Level := ⟨50⟩

def name (level : Level) : String :=
  match level.value with
  | 50 => "CRITICAL"
  | 40 => "ERROR"
  | 30 => "WARNING"
  | 20 => "INFO"
  | 10 => "DEBUG"
  | 0 => "NOTSET"
  | n => s!"Level {n}"

end Level

/-- The components that keep a log. -/
inductive Component
  | tasks
  | projects
  | ordering
  | status
  | locks
  | memoryStore
  | sqlStore
  | database
  | settings
  | logging
  | commandLine
  deriving DecidableEq, Repr

def Component.name : Component → String
  | .tasks => "tasktree.services.task_service"
  | .projects => "tasktree.services.project_service"
  | .ordering => "tasktree.services.ordering"
  | .status => "tasktree.services.status"
  | .locks => "tasktree.services.tree_lock"
  | .memoryStore => "tasktree.repositories.memory"
  | .sqlStore => "tasktree.repositories.sql"
  | .database => "tasktree.database"
  | .settings => "tasktree.config"
  | .logging => "tasktree.logging_config"
  | .commandLine => "tasktree.__main__"

/-- One entry of a log. -/
structure Record where
  level : Level
  source : String
  message : Text
  deriving DecidableEq, Repr

def Component.record (c : Component) (level : Level) (message : Text) : Record :=
  ⟨level, c.name, message⟩

end Agenda.Log
