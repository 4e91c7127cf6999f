import Agenda.Proofs.Operation.Reading

/-!
# The course of an operation

What a store would look up besides, to answer a request, is the business of the store and of nobody
but those who make its requests fail.  No operation asks for it, so its course is settled by the
replies alone, and two stores that give the same replies lead it along the same way.

Operations are steady (`Operation.steady_alone`): except where they ask whether there is a task at
all, they have no answer to a failure of a request but to fail with it, and at most one operation
puts it into its context.  And an operation looks for a project by no name but the one that it is
handed (`Operation.sought?`).
-/

namespace Agenda

open Program

/-- The name by which an operation looks for a project. -/
def Operation.sought? : Operation → Option Text
  | .createProject name | .projectNamed name => some name
  | _ => none

/-- The program asks nothing of the store but requests and its size, it looks for projects only by
names of a kind `P`, and it passes failures of a kind `G` on, with at most `n` contexts around
them. -/
abbrev Program.Steady {α : Type} (P : Text → Prop) (G : Failure → Prop) (n : Nat) (p : Program α) :
    Prop :=
  p.Regular (fun request => ∀ name ∈ request.sought?, P name) (fun _ => True) G n

variable {α : Type} {P : Text → Prop} {G : Failure → Prop} {k : Nat}

theorem steady_fail (e : Failure) : (fail e : Program α).Steady P G k := regular_fail trivial

/-- A request that does not look for a name. -/
theorem steady_ask (request : Store.Call) (h : request.sought? = none) :
    (ask request).Steady P G k :=
  regular_ask fun _ hname => nomatch h ▸ hname

theorem steady_ask_named {name : Text} (h : P name) :
    (ask (.projectNamed name)).Steady P G k :=
  regular_ask fun _ hname => Option.some.inj hname ▸ h

namespace Siblings

theorem steady_fetch (t : Task) : (fetch t).Steady P G k := by
  unfold fetch
  dsimp only
  split
  · exact (steady_ask _ rfl).bind fun _ => regular_pure _
  · exact (steady_ask _ rfl).bind fun _ => regular_pure _

theorem steady_append (t : Task) : (append t).Steady P G (k + 1) := by
  refine Regular.bind ?_ fun placed => (regular_log _ _ _).bind fun _ => regular_pure _
  exact ((steady_fetch t).bind fun _ => (steady_ask _ rfl).bind fun _ => regular_pure _).inContext _

theorem steady_closeGap (t : Task) : (closeGap t).Steady P G k := by
  refine (steady_fetch t).bind fun group => ?_
  dsimp only
  split
  · exact regular_pure _
  · exact (steady_ask _ rfl).bind fun _ => regular_log _ _ _

theorem steady_removeStored (t : Task) : (removeStored t).Steady P G k := by
  have hlast : (closeGap t >>= fun _ => (ask (.remove t.id) : Program Task)).Steady P G k :=
    (steady_closeGap t).bind fun _ => steady_ask _ rfl
  refine (steady_ask _ rfl).bind fun below => ?_
  refine (Regular.forM (fun d : Task => (steady_ask (.remove d.id) rfl).discard) _).bind fun _ => ?_
  dsimp only
  split
  · exact hlast
  · exact (regular_log _ _ _).bind fun _ => hlast

/-- A look for a task takes only one failure in its stride, which is that there is none. -/
theorem steady_find (hG : ∀ e, G e → e.isProblem .taskNotFound = false) (id : Uuid)
    {ifAbsent : Program Unit} (h : ifAbsent.Steady P G k) : (find id ifAbsent).Steady P G k := by
  refine (steady_ask _ rfl).map.handle (n := k) (fun e => ?_) fun e e' he hwithin => ?_
  · split
    · exact h.bind fun _ => regular_pure _
    · exact steady_fail e
  · have hother : ¬ e'.isProblem .taskNotFound = true := by
      rw [hwithin.isProblem_eq, hG e he]
      exact Bool.false_ne_true
    rw [if_neg hother]
    exact hwithin

theorem steady_remove (hG : ∀ e, G e → e.isProblem .taskNotFound = false) (id : Uuid) :
    (remove id).Steady P G (k + 1) := by
  refine (steady_find hG id (regular_log _ _ _)).bind fun found => ?_
  split
  · exact regular_pure _
  · exact (steady_removeStored _).map.inContext _

theorem steady_moveBy (id : Uuid) (choose : Nat → Except Failure Int) :
    (moveBy id choose).Steady P G (k + 1) := by
  -- a lonely task, a choice that fails, the old place, a task that is not found, and the move
  refine (steady_ask _ rfl).bind fun t => ((steady_fetch t).inContext _).bind fun group => ?_
  dsimp only
  split
  · exact regular_pure _
  split
  · exact steady_fail _
  split
  · exact (regular_log _ _ _).bind fun _ => regular_pure _
  split
  · exact steady_fail _
  · exact ((steady_ask _ rfl).inContext _).bind fun _ =>
      (regular_log _ _ _).bind fun _ => regular_pure _

end Siblings

namespace Completion

theorem steady_closeAbove (n : Nat) (t : Task) : (closeAbove n t).Steady P G k := by
  induction n generalizing t with
  | zero => exact regular_pure _
  | succ n ih =>
    unfold closeAbove
    split
    · exact regular_pure _
    · refine (steady_ask _ rfl).bind fun parent => ?_
      split
      · exact regular_pure _
      · refine (steady_ask _ rfl).bind fun group => ?_
        dsimp only
        split
        · exact (steady_ask _ rfl).bind fun _ => (regular_log _ _ _).bind fun _ => ih parent
        · exact regular_log _ _ _

theorem steady_complete (id : Uuid) : (complete id).Steady P G k := by
  have hrest (t : Task) (below : List Task) :
      (below.forM (fun d : Task => ask (.setStatus d.id .completed)) >>= fun _ => do
        closeAbove (← stored) t
        return { t with status := Status.completed } : Program Task).Steady P G k :=
    (Regular.forM (fun d : Task => steady_ask (.setStatus d.id .completed) rfl) _).bind fun _ =>
      regular_stored.bind fun n => (steady_closeAbove n t).bind fun _ => regular_pure _
  refine (steady_ask _ rfl).bind fun t => (steady_ask _ rfl).bind fun _ => ?_
  refine (regular_log _ _ _).bind fun _ => (steady_ask _ rfl).bind fun below => ?_
  dsimp only
  split
  · exact hrest t below
  · exact (regular_log _ _ _).bind fun _ => hrest t below

theorem steady_reopenAbove (start : Uuid) (n : Nat) (t : Task) :
    (reopenAbove start n t).Steady P G k := by
  induction n generalizing t with
  | zero => exact regular_pure _
  | succ n ih =>
    unfold reopenAbove
    split
    · exact regular_pure _
    · refine (steady_ask _ rfl).bind fun parent => ?_
      split
      · exact (steady_ask _ rfl).bind fun _ => (regular_log _ _ _).bind fun _ => ih parent
      · exact regular_pure _

theorem steady_reopen (id : Uuid) : (reopen id).Steady P G k := by
  refine (steady_ask _ rfl).bind fun t => ?_
  split
  · exact (steady_ask _ rfl).bind fun _ => (regular_log _ _ _).bind fun _ =>
      regular_stored.bind fun n => (steady_reopenAbove _ n t).bind fun _ => regular_pure _
  · exact (regular_log _ _ _).bind fun _ => regular_pure _

theorem steady_set (id : Uuid) (status : Status) : (set id status).Steady P G k := by
  cases status with
  | completed => exact steady_complete id
  | pending => exact steady_reopen id

end Completion

theorem Projects.steady_create (on : Occasion) {name : Text} (h : P name) :
    (create on name).Steady P G k := by
  refine (regular_log _ _ _).bind fun _ => (steady_ask_named h).bind fun found => ?_
  split
  · exact (regular_log _ _ _).bind fun _ => steady_fail _
  split
  · exact steady_fail _
  · exact (steady_ask _ rfl).bind fun _ => (regular_log _ _ _).bind fun _ => regular_pure _

namespace Tasks

theorem steady_reporting {p : Program α} (hp : p.Steady P G k) (kind : Problem.Kind)
    (lead : Text) : (reporting kind lead p).Steady P G k := by
  refine hp.handle (fun e => ?_) fun e e' _ hwithin => ?_
  · split
    · exact (regular_log _ _ _).bind fun _ => steady_fail e
    · exact steady_fail e
  · split
    · exact hwithin
    · exact hwithin

theorem steady_checkHome (project : Uuid) (parent : Option Uuid) :
    (checkHome project parent).Steady P G k := by
  refine (steady_ask _ rfl).bind fun _ => ?_
  split
  · exact regular_pure _
  · refine (steady_ask _ rfl).bind fun above => ?_
    split
    · exact regular_pure _
    · exact steady_fail _

theorem steady_createNamed (on : Occasion) (name : Text) (project : Uuid)
    (parent : Option Uuid) : (createNamed on name project parent).rest.Steady P G (k + 1) := by
  refine regular_note (Regular.bind ?_ fun _ => ?_)
  · exact (steady_reporting (steady_checkHome project parent) _ _).inContext _
  · exact (Siblings.steady_append _).bind fun _ => (regular_log _ _ _).bind fun _ => regular_pure _

theorem regular_validate {K : Store.Call → Prop} (t : Task) (refused : List Field.Error) :
    (validate t refused).Regular K (fun _ => True) G k := by
  unfold validate
  split
  · exact regular_pure _
  · exact regular_fail trivial

theorem steady_create (on : Occasion) (name : Text) (project : Uuid) (parent : Option Uuid) :
    (Plan.alone (create on name project parent)).Steady P G (k + 1) := by
  unfold create
  rw [Plan.alone_bind]
  refine (regular_log _ _ _).bind fun _ => ?_
  rw [Plan.alone_bind]
  refine (regular_ofExcept _ fun _ => trivial).bind fun name => ?_
  rw [Plan.alone_bind]
  exact (regular_validate _ _).bind fun _ => steady_createNamed on name project parent

theorem steady_rename (id : Uuid) (name : Text) : (rename id name).Steady P G (k + 1) := by
  refine (regular_ofExcept _ fun _ => trivial).bind fun name => ?_
  refine ((steady_reporting (steady_ask _ rfl) _ _).inContext _).bind fun _ => ?_
  exact (regular_log _ _ _).bind fun _ => regular_pure _

theorem steady_reorderBy (id : Uuid) {move : Program Task} (hmove : move.Steady P G k) :
    (Plan.alone (reorderBy id move)).Steady P G k := by
  unfold reorderBy
  rw [Plan.alone_bind]
  refine (steady_ask _ rfl).bind fun t => regular_note ?_
  refine (steady_reporting hmove _ _).bind fun _ => ?_
  exact (regular_log _ _ _).bind fun _ => regular_pure _

theorem steady_reorder (id : Uuid) (place : Int) :
    (Plan.alone (reorder id place)).Steady P G (k + 1) :=
  steady_reorderBy id (Siblings.steady_moveBy id _)

theorem steady_setStatus (id : Uuid) (status : Status) :
    (Plan.alone (setStatus id status)).Steady P G (k + 1) := by
  unfold setStatus
  rw [Plan.alone_bind]
  refine (steady_ask _ rfl).bind fun t => regular_note ?_
  refine ((steady_reporting (Completion.steady_set _ _) _ _).inContext _).bind fun _ => ?_
  exact (regular_log _ _ _).bind fun _ => regular_pure _

theorem steady_delete (hG : ∀ e, G e → e.isProblem .taskNotFound = false) (id : Uuid) :
    (Plan.alone (delete id)).Steady P G (k + 1) := by
  unfold delete
  rw [Plan.alone_bind]
  refine (Siblings.steady_find hG _ (regular_log _ _ _)).bind fun found => ?_
  cases found with
  | none => exact regular_pure _
  | some t =>
    refine regular_note ((Siblings.steady_remove hG _).bind fun removed => ?_)
    split
    · exact regular_pure _
    · exact (regular_log _ _ _).bind fun _ => regular_pure _

end Tasks

/-- **Every operation is steady**: a failure is passed on in one context at most.  Only a removal
takes it in its stride if there is no task. -/
theorem Operation.steady_of_delete {op : Operation} (hP : ∀ name ∈ op.sought?, P name)
    (hG : ∀ id, op = .delete id → ∀ e, G e → e.isProblem .taskNotFound = false) (on : Occasion) :
    (Plan.alone (op.plan on)).Steady P G (k + 1) := by
  have hlook : ∀ request : Store.Call, request.IsRead → request.sought? = none →
      ∀ name ∈ request.sought?, P name :=
    fun _ _ hnone _ hname => nomatch hnone ▸ hname
  cases op with
  | createProject name =>
    rw [plan, Plan.alone_ofProgram]
    exact (Projects.steady_create on (hP name rfl)).map
  | projectNamed name =>
    rw [plan, Plan.alone_ofProgram]
    exact (steady_ask_named (hP name rfl)).map
  | project | projects | tasks =>
    rw [plan, Plan.alone_ofProgram]
    exact (steady_ask _ rfl).map
  | createTask name home parent =>
    rw [plan, Plan.alone_map]
    exact (Tasks.steady_create on name home parent).map
  | task id withSubtasks =>
    rw [plan, Plan.alone_ofProgram]
    exact (Tasks.regular_read hlook id withSubtasks).map
  | projectTasks project =>
    rw [plan, Plan.alone_ofProgram]
    exact (Tasks.regular_projectTasks hlook project).map
  | projectTree project =>
    rw [plan, Plan.alone_ofProgram]
    exact (Tasks.regular_projectTree hlook project).map
  | subtasks id deep =>
    rw [plan, Plan.alone_ofProgram]
    exact (Tasks.regular_subtasks hlook id deep).map
  | search project word =>
    rw [plan, Plan.alone_ofProgram]
    exact (Tasks.regular_search hlook (fun _ => trivial) project word).map
  | rename id name =>
    rw [plan, Plan.alone_ofProgram]
    exact (Tasks.steady_rename id name).map
  | reorder id place =>
    rw [plan, Plan.alone_map]
    exact (Tasks.steady_reorder id place).map
  | setStatus id word =>
    rw [plan, Plan.alone_map]
    refine Regular.map ?_
    change (Plan.alone (ofExcept (Status.read word) >>= Tasks.setStatus id)).Steady P G (k + 1)
    rw [Plan.alone_bind]
    exact (regular_ofExcept _ fun _ => trivial).bind fun status => Tasks.steady_setStatus id status
  | complete id =>
    rw [plan, Plan.alone_map]
    exact (Tasks.steady_setStatus id .completed).map
  | reopen id =>
    rw [plan, Plan.alone_map]
    exact (Tasks.steady_setStatus id .pending).map
  | delete id =>
    rw [plan, Plan.alone_map]
    exact (Tasks.steady_delete (hG id rfl) id).map

/-- A failure other than the absence of a task is passed on by every operation. -/
theorem Operation.steady_alone {op : Operation} (hP : ∀ name ∈ op.sought?, P name)
    (hG : ∀ e, G e → e.isProblem .taskNotFound = false) (on : Occasion) :
    (Plan.alone (op.plan on)).Steady P G (k + 1) :=
  steady_of_delete hP (fun _ _ => hG) on

end Agenda
