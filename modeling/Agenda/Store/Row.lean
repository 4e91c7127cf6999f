import Agenda.Store.Call

/-!
# Rows

Records as a database keeps them: identifiers and status words as texts, an absent parent as
nothing.  Loading a row is not only the way back; the row is checked like any record from outside,
because a row may have been written without a check.  Whole numbers have 64 bits.
-/

namespace Agenda.Store

/-- A number that a database can keep. -/
def fitsColumn (n : Int) : Bool :=
  -9223372036854775808 ≤ n && n < 9223372036854775808

/-- A text that must be an identifier. -/
def loadUuid (s : String) : Except Failure Uuid :=
  match Uuid.read? s with
  | some u => .ok u
  | none => .error (.badValue "badly formed hexadecimal UUID string")

/-- A text that must be a status word. -/
def loadStatus (s : String) : Except Failure Status :=
  match Status.ofText? s with
  | some status => .ok status
  | none => .error (.badValue s!"{Text.quoted s} is not a valid TaskStatus")

/-- A text that must be an identifier, unless it is absent or empty. -/
def loadParent : Option String → Except Failure (Option Uuid)
  | none => .ok none
  | some s => if s = "" then .ok none else (loadUuid s).map some

/-- A project as a row. -/
structure ProjectRow where
  id : String
  name : Text
  created : Instant
  deriving DecidableEq, Repr, Inhabited

namespace ProjectRow

def ofProject (p : Project) : ProjectRow := ⟨p.id.text, p.name, p.created⟩

/-- The project of a row, checked. -/
def load (r : ProjectRow) : Except Failure Project := do
  let id ← loadUuid r.id
  let p : Project := ⟨id, r.name, r.created⟩
  if p.errors.isEmpty then .ok p else .error (.refused "Project" p.errors)

/-- A row as it describes itself. -/
def text (r : ProjectRow) : Text := s!"<ProjectORM(id={r.id}, name=" ++ r.name ++ ")>"

end ProjectRow

/-- A task as a row. -/
structure TaskRow where
  id : String
  name : Text
  project : String
  parent : Option String
  status : String
  order : Int
  created : Instant
  updated : Instant
  deriving DecidableEq, Repr, Inhabited

namespace TaskRow

def ofTask (t : Task) : TaskRow :=
  ⟨t.id.text, t.name, t.project.text, t.parent.map Uuid.text, t.status.text, t.order, t.created,
    t.updated⟩

/-- The task of a row, checked. -/
def load (r : TaskRow) : Except Failure Task := do
  let id ← loadUuid r.id
  let project ← loadUuid r.project
  let parent ← loadParent r.parent
  let status ← loadStatus r.status
  let t : Task := ⟨id, r.name, project, parent, status, r.order, r.created, r.updated⟩
  if t.errors.isEmpty then .ok t else .error (.refused "Task" t.errors)

/-- A row as it describes itself. -/
def text (r : TaskRow) : Text :=
  s!"<TaskORM(id={r.id}, name=" ++ r.name ++ s!", order={r.order})>"

end TaskRow

end Agenda.Store
