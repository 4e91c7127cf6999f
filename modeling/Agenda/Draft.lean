import Agenda.Draft.Whole
import Agenda.Project
import Agenda.Task.Tree

/-!
# Drafts

A record as an outsider fills it in: every field may be absent or hold anything.  Reading a draft
checks each field by itself, supplies what is absent and may be, and ends with either the record or
the refusals of all fields, in the order of the fields and with their paths.  The subtasks of a
task draft are drafts themselves and are read last; drafts that stand inside too many others are
refused unread.
-/

namespace Agenda

/-- A record to be read: named values. -/
abbrev Draft := List (String × Value)

namespace Draft

/-! ### Single values -/

/-- A name that follows a rule. -/
def readName (rule : NameRule) : Value → Reading Text
  | .plain (.text name) =>
    match rule.refusal? name with
    | some r => .error r
    | none => .ok name
  | _ => .error .notText

/-- The identifier that a string in one of the strict forms names. -/
def ofStrict (s : String) : Reading Uuid :=
  match Uuid.readStrict? s with
  | some u => .ok u
  | none => .error .badUuid

/-- An identifier, as it is or in one of the strict forms. -/
def readUuid : Value → Reading Uuid
  | .id u => .ok u
  | .plain (.text t) => readString ofStrict t
  | _ => .error .notUuid

/-- An identifier, or nothing. -/
def readParent : Value → Reading (Option Uuid)
  | .plain .absent => .ok none
  | v => (readUuid v).map some

/-- The status that a string names letter for letter. -/
def ofStatusWord (s : String) : Reading Status :=
  match Status.ofText? s with
  | some status => .ok status
  | none => .error .notStatus

/-- A status word, letter for letter. -/
def readStatus : Value → Reading Status
  | .plain (.text t) => readString ofStatusWord t
  | _ => .error .notStatus

/-- A whole number that is not negative. -/
def readOrder (v : Value) : Reading Int := do
  let n ← readWhole v
  if n < 0 then .error .negative else .ok n

/-- The instant that a string in calendar form tells, not before the year 1. -/
def ofCalendar (s : String) : Reading Instant :=
  match Instant.read? s with
  | some t => if t < Instant.ofDate 1 1 1 then .error .earlyInstant else .ok t
  | none => .error .badInstant

/-- An instant in calendar form. -/
def readInstant : Value → Reading Instant
  | .plain (.text t) => readString ofCalendar t
  | _ => .error .notInstant

/-! ### Fields -/

/-- Reads the field with a name.  If it is absent, the reading is one that is given; a refusal is
then one of the draft as a whole. -/
def field {α : Type} (d : Draft) (name : String) (absent : Reading α) (read : Value → Reading α) :
    Except Field.Error α :=
  match d.lookup name with
  | some v => (read v).mapError (Field.Error.at name · v)
  | none => absent.mapError (Field.Error.at name · (.record d))

/-- Reads a field that may not be absent. -/
def required {α : Type} (d : Draft) (name : String) (read : Value → Reading α) :
    Except Field.Error α :=
  d.field name (.error .missing) read

/-- Reads a field, or supplies its value. -/
def optional {α : Type} (d : Draft) (name : String) (absent : α) (read : Value → Reading α) :
    Except Field.Error α :=
  d.field name (.ok absent) read

/-- The refusal of a field, if it is refused. -/
def refusals {α : Type} : Except Field.Error α → List Field.Error
  | .ok _ => []
  | .error e => [e]

/-! ### Projects -/

def readProject (on : Occasion) (d : Draft) : Except (List Field.Error) Project :=
  let id := d.optional "id" on.freshId readUuid
  let name := d.required "name" (readName .project)
  let created := d.optional "created_at" on.now readInstant
  match id, name, created with
  | .ok id, .ok name, .ok created => .ok ⟨id, name, created⟩
  | _, _, _ => .error (refusals id ++ refusals name ++ refusals created)

/-! ### Tasks -/

/-- Reads the fields of a task draft, all but the subtasks. -/
def readTask (on : Occasion) (d : Draft) : Except (List Field.Error) Task :=
  let id := d.optional "id" on.freshId readUuid
  let name := d.required "name" (readName .task)
  let project := d.required "project_id" readUuid
  let parent := d.optional "parent_task_id" none readParent
  let status := d.optional "status" .pending readStatus
  let order := d.optional "order" 0 readOrder
  let created := d.optional "created_at" on.now readInstant
  let updated := d.optional "updated_at" on.now readInstant
  match id, name, project, parent, status, order, created, updated with
  | .ok id, .ok name, .ok project, .ok parent, .ok status, .ok order, .ok created, .ok updated =>
    .ok ⟨id, name, project, parent, status, order, created, updated⟩
  | _, _, _, _, _, _, _, _ =>
    .error (refusals id ++ refusals name ++ refusals project ++ refusals parent ++
      refusals status ++ refusals order ++ refusals created ++ refusals updated)

/-- Two readings side by side: both results, or the refusals of both. -/
def both {α β : Type} : Except (List Field.Error) α → Except (List Field.Error) β →
    Except (List Field.Error) (α × β)
  | .ok a, .ok b => .ok (a, b)
  | .ok _, .error es => .error es
  | .error es, .ok _ => .error es
  | .error es, .error fs => .error (es ++ fs)

/-- Reads the elements of a list, the first of which stands at a given place. -/
def readAll (read : Value → Except (List Field.Error) Tree) (place : Nat) :
    List Value → Except (List Field.Error) (List Tree)
  | [] => .ok []
  | v :: vs =>
    let first := (read v).mapError fun es =>
      es.map (Field.Error.under [.field "subtasks", .index place])
    (both first (readAll read (place + 1) vs)).map fun (tree, trees) => tree :: trees

/-- Reads a task draft with its subtasks, through a number of levels. -/
def readLevels (on : Occasion) : Nat → Value → Except (List Field.Error) Tree
  | 0, v => .error [⟨[], .tooDeep, .of v⟩]
  | levels + 1, .record d =>
    let subtasks := match d.lookup "subtasks" with
      | none => .ok []
      | some (.list vs) => readAll (readLevels on levels) 0 vs
      | some v => .error [.at "subtasks" .notList v]
    (both (readTask on d) subtasks).map fun (task, trees) => .node task trees
  | _ + 1, v => .error [⟨[], .notTask, .of v⟩]

/-- The most levels of drafts inside each other. -/
def maxLevels : Nat := 255

def readTree (on : Occasion) (d : Draft) : Except (List Field.Error) Tree :=
  readLevels on maxLevels (.record d)

end Draft

end Agenda
