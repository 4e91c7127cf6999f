import Agenda.Operation
import Agenda.Proofs.Catalog.Basic
import Agenda.Proofs.Program.Plan
import Agenda.Proofs.Program.Relays

/-!
# Operations that only look

Ten of the requests of a store write nothing, and the operations that only look are made of these.
They can fail with problems only, because a catalog fails with nothing else
(`Catalog.answer_error`).
-/

namespace Agenda

open Program

/-- A problem of the task tree, and no failure from outside. -/
def Failure.IsProblem (e : Failure) : Prop := ∃ p, e = .problem p

@[simp] theorem Failure.isProblem_of (reason : Problem.Reason) : (Failure.of reason).IsProblem :=
  ⟨_, rfl⟩

theorem Failure.IsProblem.inContext {e : Failure} (h : e.IsProblem) (c : Problem.Context) :
    (e.inContext c).IsProblem := by
  obtain ⟨p, rfl⟩ := h
  exact ⟨p.inContext c, rfl⟩

/-- A request that writes nothing. -/
def Store.Call.IsRead : Store.Call → Prop
  | .addTask _ | .rename .. | .setOrders _ | .setStatus .. | .remove _ | .addProject _ => False
  | _ => True

/-- The name by which a request looks for a project. -/
def Store.Call.sought? : Store.Call → Option Text
  | .projectNamed name => some name
  | _ => none

namespace Catalog

variable {c : Catalog} {now : Instant}

theorem task_error {id : Uuid} {e : Failure} (h : c.task id = .error e) : e.IsProblem := by
  unfold task at h
  split at h
  · cases h
  · cases h
    exact Failure.isProblem_of _

theorem about_error {α : Type} {id : Uuid} {answer : α} {e : Failure}
    (h : (c.about id answer).1 = .error e) : e.IsProblem := by
  unfold about at h
  cases hid : c.task id with
  | ok t =>
    rw [hid] at h
    cases h
  | error e' =>
    rw [hid] at h
    cases h
    exact task_error hid

theorem change_error {id : Uuid} {f : Task → Task} {e : Failure}
    (h : (c.change id f).1 = .error e) : e.IsProblem := by
  unfold change at h
  split at h
  · cases h
  · rename_i hid
    cases h
    exact task_error hid

/-- **Problems only.**  Whatever a catalog refuses, it refuses with a problem. -/
theorem answer_error {request : Store.Call} {e : Failure}
    (h : (Store.Backend.answer now request c).1 = .error e) : e.IsProblem := by
  cases request with
  | task id => exact task_error h
  | children id => exact about_error h
  | descendants id => exact about_error h
  | rename id name => exact change_error h
  | roots | tasksOf | tasksWith | allTasks | projectNamed | allProjects => cases h
  | project id =>
    rcases c.project_cases now id with ⟨p, -, -, hreply⟩ | ⟨-, hreply⟩
    · rw [hreply] at h
      cases h
    · rw [hreply] at h
      cases h
      exact Failure.isProblem_of _
  | setStatus id status =>
    rw [answer_setStatus] at h
    cases hreply : (c.change id fun t => { t with status := status, updated := now }).1 with
    | ok t =>
      rw [hreply] at h
      cases h
    | error e' =>
      rw [hreply] at h
      cases h
      exact change_error hreply
  | addTask t =>
    rw [answer_addTask, addTask] at h
    split at h
    · cases h
      exact Failure.isProblem_of _
    · cases h
  | setOrders orders =>
    rw [answer_setOrders, setOrders] at h
    split at h
    · cases h
      exact Failure.isProblem_of _
    · cases h
  | remove id =>
    rw [answer_remove, remove] at h
    split at h
    · cases h
    · rename_i hid
      cases h
      exact task_error hid
  | addProject p =>
    rw [answer_addProject, addProject] at h
    split at h
    · cases h
      exact Failure.isProblem_of _
    · split at h
      · cases h
        exact Failure.isProblem_of _
      · cases h

end Catalog

namespace Tasks

section

variable {K : Store.Call → Prop} {F G : Failure → Prop} {n : Nat}
  (hK : ∀ request, request.IsRead → request.sought? = none → K request)

include hK

theorem regular_expand (t : Task) : (expand t).Regular K F G n :=
  (regular_ask (hK _ (by trivial) (by rfl))).bind fun _ => regular_pure _

theorem regular_read (id : Uuid) (withSubtasks : Bool) :
    (read id withSubtasks).Regular K F G n := by
  refine (regular_ask (hK _ (by trivial) (by rfl))).bind fun t => ?_
  split
  · exact regular_expand hK t
  · exact regular_pure _

theorem regular_projectTree (project : Uuid) : (projectTree project).Regular K F G n :=
  (regular_ask (hK _ (by trivial) (by rfl))).bind fun _ =>
    (regular_ask (hK _ (by trivial) (by rfl))).bind fun _ => .mapM (regular_expand hK) _

theorem regular_projectTasks (project : Uuid) : (projectTasks project).Regular K F G n :=
  (regular_ask (hK _ (by trivial) (by rfl))).bind fun _ => regular_ask (hK _ (by trivial) (by rfl))

theorem regular_search (hF : ∀ p, F (.problem p)) (project : Uuid) (word : Scalar) :
    (search project word).Regular K F G n :=
  (regular_ofExcept _ hF).bind fun _ => (regular_ask (hK _ (by trivial) (by rfl))).bind fun _ =>
    regular_ask (hK _ (by trivial) (by rfl))

theorem regular_subtasks (id : Uuid) (deep : Bool) : (subtasks id deep).Regular K F G n := by
  unfold subtasks
  split
  · exact regular_ask (hK _ (by trivial) (by rfl))
  · exact regular_ask (hK _ (by trivial) (by rfl))

end

end Tasks

end Agenda
