import Agenda.Program.Basic

/-!
# Creating projects

Projects only have to exist and to differ in name.  A name that is taken is reported before a name
that breaks the rule.
-/

namespace Agenda.Projects

open Program

/-- Where the log entries of this module come from. -/
def say (level : Log.Level) (message : Text) : Program Unit :=
  log .projects level message

/-- What is logged before a project is created. -/
def announce (name : Text) : Program Unit :=
  say .debug ("Creating project: name='" ++ name ++ "'")

/-- Creates a project, unless its name is taken or breaks the rule. -/
def create (on : Occasion) (name : Text) : Program Project := do
  announce name
  match ← (ask (.projectNamed name) : Program (Option Project)) with
  | some _ =>
    say .warning ("Project creation failed - name already exists: '" ++ name ++ "'")
    fail (.of (.projectNameTaken name))
  | none =>
    match NameRule.project.refusal? name with
    | some refusal => fail (.of (.badProjectName name refusal.message))
    | none =>
      let project : Project := ⟨on.freshId, name, on.now⟩
      ask (.addProject project)
      say .info (s!"Created project: id={project.id.text}, name='" ++ name ++ "'")
      return project

end Agenda.Projects
