import Agenda.Program.Basic
import Agenda.Sorting

/-!
# Siblings

The tasks with one parent, or the root tasks of one project, are numbered `0, 1, 2, …` by their
`order`.  Three programs keep it so: `append` puts a task behind its siblings, `remove` takes a
task out with everything below it and closes the gap, and `move` puts a task at another place.
None of them checks what lies across groups; their callers do.
-/

namespace Agenda

/-- A problem of this class. -/
def Failure.isProblem (kind : Problem.Kind) : Failure → Bool
  | .problem p => p.kind.isA kind
  | _ => false

namespace Siblings

open Program

def say (level : Log.Level) (message : Text) : Program Unit :=
  log .ordering level message

/-- The group of a task in ascending order, with the task itself if it is stored. -/
def fetch (t : Task) : Program (List Task) := do
  let group ← match t.parent with
    | none => (ask (.roots t.project) : Program (List Task))
    | some parent => (ask (.children parent) : Program (List Task))
  return sortOn (·.order) group

/-! ### Adding -/

/-- Stores a task as the last of its group, and answers with it as stored. -/
def append (t : Task) : Program Task := do
  let placed ← inContext (.creatingTask t.name) do
    let group ← fetch t
    let placed := { t with order := group.length }
    ask (.addTask placed)
    return placed
  say .debug s!"Appended task {placed.id.text} at order {placed.order}"
  return placed

/-! ### Removing -/

/-- The new places of the siblings behind a place that becomes free. -/
def closing (group : List Task) (place : Int) : List (Uuid × Int) :=
  (group.filter (place < ·.order)).map fun s => (s.id, s.order - 1)

/-- Moves the siblings behind a task up by one. -/
def closeGap (t : Task) : Program Unit := do
  let group ← fetch t
  let orders := closing group t.order
  if group.length ≤ 1 || orders.isEmpty then return ()
  else
    ask (.setOrders orders)
    say .debug
      s!"Renumbered {orders.length} siblings after removing task {t.id.text} at order {t.order}"

/-- Removes a stored task: what is below it from the bottom up, then the gap, then the task. -/
def removeStored (t : Task) : Program Task := do
  let below ← (ask (.descendants t.id) : Program (List Task))
  below.reverse.forM fun d => discard (ask (.remove d.id))
  if below.isEmpty then pure ()
  else say .debug s!"Deleted {below.length} descendants of task {t.id.text}"
  closeGap t
  ask (.remove t.id)

/-- A task, or nothing if there is none. -/
def find (id : Uuid) (ifAbsent : Program Unit) : Program (Option Task) :=
  (some <$> (ask (.task id) : Program Task)).handle fun e =>
    if e.isProblem .taskNotFound then do
      ifAbsent
      return none
    else fail e

/-- Removes a task with everything below it, and answers with it, or with nothing if there is no
such task. -/
def remove (id : Uuid) : Program (Option Task) := do
  match ← find id (say .warning s!"Task {id.text} does not exist, nothing to delete") with
  | none => return none
  | some t => inContext (.deletingTask t.id) (some <$> removeStored t)

/-! ### Moving -/

/-- The group with its element at one place taken out and put back at another. -/
def moved (group : List Task) (source target : Nat) : List Task :=
  match group[source]? with
  | some t => (group.eraseIdx source).insertIdx target t
  | none => group

/-- The places of the tasks between two places, those included, counted from the lower one. -/
def renumbering (group : List Task) (source target : Nat) : List (Uuid × Int) :=
  let low := min source target
  let high := max source target
  (((moved group source target).drop low).take (high + 1 - low)).zipIdx.map fun (s, offset) =>
    (s.id, ((low + offset : Nat) : Int))

/-- The place of a target within a group of some size: before the front is the front, behind the
end is the end. -/
def clamp (size : Nat) (target : Int) : Int :=
  max 0 (min target (size - 1))

/-- Puts a task at the place that a rule chooses in a group of some size, and answers with the task.
A task that is alone in its group needs no place. -/
def moveBy (id : Uuid) (choose : Nat → Except Failure Int) : Program Task := do
  let t ← (ask (.task id) : Program Task)
  let group ← inContext (.fetchingSiblings t.id) (fetch t)
  if group.length ≤ 1 then return t
  else
    match choose group.length with
    | .error e => fail e
    | .ok place =>
      if place = t.order then
        say .debug s!"Task {t.id.text} already at order {place}"
        return t
      else
        match group.findIdx? (·.id = t.id) with
        | none => fail (.broken "coroutine raised StopIteration")
        | some source =>
          let orders := renumbering group source place.toNat
          inContext (.reorderingTask t.id) (ask (.setOrders orders))
          let others := orders.length - 1
          say .debug
            s!"Moved task {t.id.text} from order {source} to {place}, {others} siblings shifted"
          return { t with order := place }

/-- Puts a task at another place of its group, and answers with it. -/
def move (id : Uuid) (target : Int) : Program Task :=
  moveBy id fun size => .ok (clamp size target)

end Siblings

end Agenda
