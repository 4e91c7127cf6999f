import Agenda.Program.Fault

/-!
# Plans

An operation that changes a tree has two parts.  The first one prepares: it refuses bad
arguments and finds out whose tree is meant.  The second one reads a part of the tree and writes
it back, and must have that project's tree for itself while it does.  A `Plan` is the point in
between: either the answer is there already, or a body waits for its project.
-/

namespace Agenda

/-- An operation after its preparation. -/
inductive Plan (α : Type)
  /-- The answer is there. -/
  | settled (answer : α)
  /-- The rest needs the tree of a project for itself. -/
  | exclusive (project : Uuid) (body : Program α)

namespace Plan

/-- What is logged when an operation gets its project for itself. -/
def acquired (project : Uuid) : Log.Record :=
  Log.Component.locks.record .debug s!"Acquired tree lock for project {project.text}"

/-- The rest of an operation that has its project, or needs none. -/
def rest {α : Type} : Plan α → Program α
  | .settled answer => return answer
  | .exclusive project body => .note (acquired project) body

/-- The operation from beginning to end, with nobody else around. -/
def alone {α : Type} (p : Program (Plan α)) : Program α :=
  p.bind rest

/-- The operation with a fault in it. -/
def inject {α : Type} (fault : Option Fault) (p : Program (Plan α)) : Program (Plan α) :=
  (p.inject fault).bind fun
    | (.settled answer, _) => return .settled answer
    | (.exclusive project body, left) =>
      return .exclusive project ((body.inject left).bind fun (answer, _) => pure answer)

/-- A program that needs no project for itself. -/
def ofProgram {α : Type} (p : Program α) : Program (Plan α) :=
  p.bind fun a => pure (.settled a)

/-- A plan with its answer put differently. -/
def map {α β : Type} (f : α → β) (p : Program (Plan α)) : Program (Plan β) :=
  p.bind fun
    | .settled a => pure (.settled (f a))
    | .exclusive project body => pure (.exclusive project (body.bind fun a => pure (f a)))

end Plan

end Agenda
