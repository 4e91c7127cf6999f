import Agenda.Operation
import Agenda.Proofs.Catalog.Basic
import Agenda.Proofs.Program.Outcome

/-!
# Plans that are carried out later

A plan that waits for a project was made with one catalog and is carried out with another: in
between, others may have changed what the plan has read.  It leads all the same to what the whole
operation would lead to if it began only then (`Operation.deferrable`), because its body reads
again whatever it needs, and uses nothing that was read before.  The one trace of the first reading
is in the words of a failure: a status is to be given to a task that is gone by then, and the
failure has the context of the request, which it lacks when the task is missed at once (`Late`).
Making a plan that waits writes nothing.
-/

namespace Agenda

open Program

variable {α β : Type} {now : Instant}

/-- What a late operation answers, compared with what it answers in time: the same, or it misses the
task whose status it is to set, with a context and without. -/
def Late (target : Option Uuid) (late timely : Except Failure α) : Prop :=
  late = timely ∨ ∃ id, target = some id ∧ timely = .error (.of (.noTask id)) ∧
    late = .error ((Failure.of (.noTask id)).inContext (.updatingStatus id))

theorem Late.map {target : Option Uuid} {late timely : Except Failure α}
    (h : Late target late timely) (f : α → β) : Late target (late.map f) (timely.map f) := by
  rcases h with rfl | ⟨id, hid, rfl, rfl⟩
  · exact .inl rfl
  · exact .inr ⟨id, hid, rfl, rfl⟩

/-- A plan that waits was made without writing, and it leads to what the whole operation leads to
from any other catalog. -/
def Deferrable (now : Instant) (target : Option Uuid) (p : Program (Plan α)) : Prop :=
  ∀ (c c' later : Catalog) (project : Uuid) (body : Program α),
    p.outcome now c = (.ok (.exclusive project body), c') →
      c' = c ∧ (body.outcome now later).2 = ((Plan.alone p).outcome now later).2 ∧
        Late target (body.outcome now later).1 ((Plan.alone p).outcome now later).1

namespace Deferrable

variable {target : Option Uuid}

/-- A plan with its answer put differently. -/
theorem map {p : Program (Plan α)} (h : Deferrable now target p) (f : α → β) :
    Deferrable now target (Plan.map f p) := by
  intro c c' later project body hplan
  obtain ⟨body', hp, rfl⟩ := Plan.outcome_map_exclusive hplan
  obtain ⟨hsame, hstore, hresult⟩ := h c c' later project body' hp
  rw [Plan.alone_map, outcome_map, outcome_map]
  exact ⟨hsame, hstore, hresult.map f⟩

/-- A program that was made a plan does not wait at all. -/
theorem ofProgram (p : Program α) : Deferrable now target (Plan.ofProgram p) := by
  intro c c' later project body hplan
  exact absurd (congrArg Prod.fst hplan) (Plan.outcome_ofProgram_ne p project body)

/-- A plan that begins with a result or a failure that is there already. -/
theorem bind_ofExcept {r : Except Problem β} {f : β → Program (Plan α)}
    (h : ∀ b, Deferrable now target (f b)) :
    Deferrable now target ((ofExcept r).bind f) := by
  cases r with
  | ok b => exact h b
  | error p => exact fun c c' later project body hplan => nomatch hplan

end Deferrable

/-! ### The plans -/

namespace Tasks

variable {c : Catalog}

theorem outcome_say (level : Log.Level) (message : Text) :
    (say level message).outcome now c = (.ok (), c) := rfl

/-- Reporting a failure in the log does not change the outcome. -/
theorem outcome_reporting (kind : Problem.Kind) (lead : Text) (p : Program α) :
    (reporting kind lead p).outcome now c = p.outcome now c := by
  rw [reporting, outcome_handle]
  generalize p.outcome now c = ran
  obtain ⟨r, c'⟩ := ran
  cases r with
  | ok a => rfl
  | error e =>
    show (if e.isProblem kind = true then _ else _ : Program α).outcome now c' = _
    split <;> rfl

/-- A request for a task: there is one, or it is missing. -/
theorem task_eq (c : Catalog) (id : Uuid) :
    (∃ t, c.task id = .ok t) ∨ c.task id = .error (.of (.noTask id)) := by
  unfold Catalog.task
  split
  · exact .inl ⟨_, rfl⟩
  · exact .inr rfl

/-- A plan that reads a task and then waits for the task's project.  It can be deferred if its body
misses the task as the plan would miss it. -/
theorem deferrable_of_task {target : Option Uuid} (id : Uuid) (body : Program α)
    (hmiss : ∀ c : Catalog, c.task id = .error (.of (.noTask id)) →
      (body.outcome now c).2 = c ∧
        Late target (body.outcome now c).1 (.error (.of (.noTask id)))) :
    Deferrable now target
      ((ask (.task id) : Program Task) >>= fun t => pure (.exclusive t.project body)) := by
  have hplan (c : Catalog) : ((ask (.task id) : Program Task) >>= fun t =>
      (pure (.exclusive t.project body) : Program (Plan α))).outcome now c =
        follow (c.task id, c) fun t c' => (.ok (.exclusive t.project body), c') :=
    outcome_bind _ _
  intro c c' later project body' h
  rw [Plan.outcome_alone, hplan later]
  rw [hplan] at h
  rcases task_eq c id with ⟨t, ht⟩ | ht
  · rw [ht] at h
    cases h
    refine ⟨rfl, ?_⟩
    rcases task_eq later id with ⟨t', ht'⟩ | ht'
    · -- the body is the same, whatever project the task belongs to now
      rw [ht']
      exact ⟨rfl, .inl rfl⟩
    · rw [ht']
      exact hmiss later ht'
  · rw [ht] at h
    cases h

/-- The fields of a task are in order or refused, whatever is stored. -/
theorem outcome_validate (t : Task) (refused : List Field.Error) (c : Catalog) :
    (validate t refused).outcome now c =
      (match t.errors ++ refused with
        | [] => .ok ()
        | errors => .error (.refused "Task" errors), c) := by
  unfold validate
  generalize t.errors ++ refused = errors
  cases errors <;> rfl

theorem deferrable_create (on : Occasion) (name : Text) (home : Uuid) (parent : Option Uuid) :
    Deferrable now none (create on name home parent) := by
  have hplan (c : Catalog) : (create on name home parent).outcome now c =
      follow ((Task.checkName name).mapError .problem, c) fun name c' =>
        follow ((validate (Task.create on name home parent) []).outcome now c') fun _ c' =>
          (.ok (createNamed on name home parent), c') := by
    show (announce name home _ >>= fun _ => ofExcept (Task.checkName name) >>= fun name =>
      validate (Task.create on name home parent) [] >>= fun _ =>
      pure (createNamed on name home parent) : Program (Plan Task)).outcome now c = _
    rw [outcome_bind, announce, outcome_say, follow_ok, outcome_bind, outcome_ofExcept]
    simp only [outcome_bind]
    rfl
  intro c c' later project body h
  rw [Plan.outcome_alone, hplan later]
  rw [hplan] at h
  cases hname : Task.checkName name with
  | error p =>
    rw [hname] at h
    cases h
  | ok name' =>
    simp only [hname, Except.mapError, follow_ok, outcome_validate] at h ⊢
    -- what the fields are refused for does not depend on what is stored
    split at h
    · cases h
      exact ⟨rfl, rfl, .inl rfl⟩
    · cases h

theorem deferrable_reorder (id : Uuid) (place : Int) :
    Deferrable now none (reorder id place) := by
  apply deferrable_of_task
  intro c hmiss
  have hmove : (Siblings.move id place).outcome now c = (.error (.of (.noTask id)), c) := by
    show ((ask (.task id) : Program Task) >>= _).outcome now c = _
    rw [outcome_bind, outcome_ask, Catalog.answer_task, hmiss]
    rfl
  rw [outcome_bind, outcome_reporting, hmove]
  exact ⟨rfl, .inl rfl⟩

/-- Giving a status is the one request that tells its context when its task is gone. -/
theorem deferrable_setStatus (id : Uuid) (status : Status) :
    Deferrable now (some id) (setStatus id status) := by
  apply deferrable_of_task
  intro c hmiss
  have hset : (Completion.set id status).outcome now c = (.error (.of (.noTask id)), c) := by
    cases status with
    | completed =>
      show ((ask (.task id) : Program Task) >>= _).outcome now c = _
      rw [outcome_bind, outcome_ask, Catalog.answer_task, hmiss]
      rfl
    | pending =>
      show ((ask (.task id) : Program Task) >>= _).outcome now c = _
      rw [outcome_bind, outcome_ask, Catalog.answer_task, hmiss]
      rfl
  rw [outcome_bind, outcome_inContext, outcome_reporting, hset]
  exact ⟨rfl, .inr ⟨id, rfl, rfl, rfl⟩⟩

/-- A look for a task before it is removed. -/
theorem outcome_find (c : Catalog) (id : Uuid) (k : Log.Component) (level : Log.Level)
    (message : Text) : (Siblings.find id (log k level message)).outcome now c =
      (.ok (c.task id).toOption, c) := by
  rw [Siblings.find, outcome_handle, outcome_map, outcome_ask, Catalog.answer_task]
  rcases task_eq c id with ⟨t, ht⟩ | ht
  · rw [ht]
    rfl
  · rw [ht]
    rfl

/-- The part of a removal that waits for its project. -/
def deleteBody (id : Uuid) : Program (Option Task) := do
  let removed ← Siblings.remove id
  match removed with
  | none => return none
  | some t =>
    say .info (s!"Deleted task: id={id.text}, name='" ++ t.name ++ "'")
    return some t

theorem deferrable_delete (id : Uuid) : Deferrable now none (delete id) := by
  have hplan (c : Catalog) : (delete id).outcome now c =
      (.ok (match (c.task id).toOption with
        | none => .settled none
        | some t => .exclusive t.project (deleteBody id)), c) := by
    show (Siblings.find id _ >>= _).outcome now c = _
    rw [outcome_bind]
    show follow ((Siblings.find id (log _ _ _)).outcome now c) _ = _
    rw [outcome_find, follow_ok]
    rcases (c.task id).toOption with - | t <;> rfl
  have hbody (c : Catalog) (hmiss : c.task id = .error (.of (.noTask id))) :
      (deleteBody id).outcome now c = (.ok none, c) := by
    have hremove : (Siblings.remove id).outcome now c = (.ok none, c) := by
      show (Siblings.find id (log _ _ _) >>= _).outcome now c = _
      rw [outcome_bind, outcome_find, hmiss]
      rfl
    rw [deleteBody, outcome_bind, hremove]
    rfl
  intro c c' later project body h
  rw [Plan.outcome_alone, hplan later]
  rw [hplan] at h
  rcases task_eq c id with ⟨t, ht⟩ | ht
  · rw [ht] at h
    cases h
    refine ⟨rfl, ?_⟩
    rcases task_eq later id with ⟨t', ht'⟩ | ht'
    · rw [ht']
      exact ⟨rfl, .inl rfl⟩
    · rw [ht', hbody later ht']
      exact ⟨rfl, .inl rfl⟩
  · rw [ht] at h
    cases h

end Tasks

/-- The task whose status an operation sets. -/
def Operation.target : Operation → Option Uuid
  | .setStatus id _ | .complete id | .reopen id => some id
  | _ => none

/-- **Late is as good as in time.**  Every operation can be deferred at the point where it waits. -/
theorem Operation.deferrable (on : Occasion) (op : Operation) :
    Deferrable now op.target (op.plan on) := by
  cases op with
  | createTask name home parent => exact (Tasks.deferrable_create on name home parent).map _
  | reorder id place => exact (Tasks.deferrable_reorder id place).map _
  | complete id => exact (Tasks.deferrable_setStatus id .completed).map _
  | reopen id => exact (Tasks.deferrable_setStatus id .pending).map _
  | delete id => exact (Tasks.deferrable_delete id).map _
  | setStatus id word =>
    exact Deferrable.map (.bind_ofExcept fun status => Tasks.deferrable_setStatus id status) _
  | createProject | project | projectNamed | projects | task | tasks | projectTasks | projectTree
  | subtasks | search | rename => exact .ofProgram _

end Agenda
