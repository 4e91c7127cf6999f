import Agenda.Program.Basic

/-!
# Completion

How the status of one task spreads.  Completing a task completes everything below it, and then
each task above it whose children are all completed, up to the first that is completed already or
has a pending child.  Reopening a task reopens the completed tasks directly above it, up to the
first that is pending, and leaves everything below as it is.
-/

namespace Agenda.Completion

open Program

def say (message : Text) : Program Unit :=
  log .status .debug message

/-- Completes the tasks above a completed task, as far as all their children are completed.  The
number bounds the steps. -/
def closeAbove : Nat → Task → Program Unit
  | 0, _ => return ()
  | n + 1, t => do
    match t.parent with
    | none => return ()
    | some above =>
      let parent ← (ask (.task above) : Program Task)
      if parent.isCompleted then return ()
      else
        let group ← (ask (.children parent.id) : Program (List Task))
        let pending := group.filter (!·.isCompleted)
        if pending.isEmpty then
          ask (.setStatus parent.id .completed)
          say s!"All subtasks of {parent.id.text} completed, completing parent"
          closeAbove n parent
        else
          say s!"Parent {parent.id.text} still has {pending.length} pending subtasks, leaving it open"

/-- Completes a task, and answers with it. -/
def complete (id : Uuid) : Program Task := do
  let t ← (ask (.task id) : Program Task)
  ask (.setStatus t.id .completed)
  say s!"Marked task {t.id.text} as completed"
  let below ← (ask (.descendants t.id) : Program (List Task))
  if below.isEmpty then pure ()
  else say s!"Task {t.id.text} has {below.length} subtasks, completing them"
  below.forM fun d => ask (.setStatus d.id .completed)
  closeAbove (← stored) t
  return { t with status := .completed }

/-- Reopens the completed tasks directly above a task.  The number bounds the steps. -/
def reopenAbove (start : Uuid) : Nat → Task → Program Unit
  | 0, _ => return ()
  | n + 1, t => do
    match t.parent with
    | none => return ()
    | some above =>
      let parent ← (ask (.task above) : Program Task)
      if parent.isCompleted then
        ask (.setStatus parent.id .pending)
        say s!"Reopened ancestor {parent.id.text} of task {start.text}"
        reopenAbove start n parent
      else return ()

/-- Reopens a task, and answers with it; a pending task is left alone. -/
def reopen (id : Uuid) : Program Task := do
  let t ← (ask (.task id) : Program Task)
  if t.isCompleted then
    ask (.setStatus t.id .pending)
    say s!"Marked task {t.id.text} as pending"
    reopenAbove t.id (← stored) t
    return { t with status := .pending }
  else
    say s!"Task {t.id.text} is already pending"
    return t

def set (id : Uuid) : Status → Program Task
  | .completed => complete id
  | .pending => reopen id

def setWord (id : Uuid) (word : Scalar) : Program Task := do
  set id (← ofExcept (Status.read word))

end Agenda.Completion
