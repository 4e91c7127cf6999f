import Agenda.Proofs.Operation.Plain
import Agenda.Proofs.Program.Faults
import Agenda.Proofs.Program.Outcome
import Agenda.Proofs.Program.Strikes

/-!
# Faults in operations

What becomes of a failure that a request meets in the middle of an operation?  It comes out: as it
is, or if it is a problem, of the same class and with one context at most in front of its message.

**No failure is lost** (`Operation.struck_at`), with one exception.  A removal looks for its task
twice, before and after it has got the project for itself, and if it hears that there is no such
task, there is nothing to do for it (`Operation.Overlooks`).  The same problem met later in a
removal comes out like all others, because only the two looks are prepared for it.

A call that is struck is one of those that the operation makes (`Program.calls`), and what
operations pass on in general is known from `Operation.steady_of_delete`.
-/

namespace Agenda

open Program

variable {α : Type} {c : Catalog} {t : Task} {id : Uuid} {now : Instant} {on : Occasion}
  {op : Operation} {fault : Fault}

/-- Only one class is that of a missing task. -/
theorem Failure.isProblem_taskNotFound_iff {e : Failure} :
    e.isProblem .taskNotFound = true ↔ ∃ p, e = .problem p ∧ p.kind = .taskNotFound := by
  have hkind (kind : Problem.Kind) : kind.isA .taskNotFound = true ↔ kind = .taskNotFound := by
    cases kind <;> decide
  constructor
  · intro h
    cases e with
    | problem p => exact ⟨p, rfl, (hkind p.kind).1 h⟩
    | _ => cases h
  · rintro ⟨p, rfl, hp⟩
    exact (hkind p.kind).2 hp

/-! ### Looks for a task -/

theorem Catalog.task_ok_or (c : Catalog) (id : Uuid) :
    (∃ t, c.task id = .ok t) ∨ c.task id = .error (.of (.noTask id)) := by
  rw [task]
  cases c.find? id with
  | none => exact .inr rfl
  | some t => exact .inl ⟨t, rfl⟩

namespace Siblings

variable {ifAbsent : Program Unit} {f : Option Task → Program α}

/-- A look for a task is a request, and three ways to go on. -/
theorem find_bind (id : Uuid) (ifAbsent : Program Unit) (f : Option Task → Program α) :
    find id ifAbsent >>= f = .call (.task id) fun reply =>
      match reply with
      | .ok t => f (some t)
      | .error e =>
        if e.isProblem .taskNotFound then ifAbsent >>= fun _ => f none else fail e := by
  refine congrArg (call (.task id)) (funext fun reply => ?_)
  cases reply with
  | ok t => rfl
  | error e =>
    change Program.bind (if _ then _ else _) f = if _ then _ else _
    split
    · exact Program.bind_assoc ifAbsent _ f
    · rfl

/-- A look for a stored task, with a fault still ahead. -/
theorem inject_find_stored (ht : c.task id = .ok t) {left : Fault}
    (hpast : fault.past? .task = some left) :
    ((find id ifAbsent >>= f).inject (some fault)).outcome now c =
      ((f (some t)).inject (some left)).outcome now c := by
  have hpass : fault.pass? (callsOf (.task id) c) = some left := congrArg (Option.bind · some) hpast
  rw [find_bind, outcome, run_inject_call, hpass]
  simp only [run, Catalog.answer_task, ht]
  rfl

/-- A look that hears from a fault that there is no task. -/
theorem inject_find_struck (hfault : fault.failure.isProblem .taskNotFound = true)
    (hpast : fault.past? .task = none) :
    ((find id ifAbsent >>= f).inject (some fault)).outcome now c =
      ((ifAbsent >>= fun _ => f none).inject none).outcome now c := by
  have hpass : fault.pass? (callsOf (.task id) c) = none := congrArg (Option.bind · some) hpast
  rw [find_bind, outcome, run_inject_call, hpass]
  dsimp only
  rw [if_pos hfault, outcome]

theorem requests_find_stored (ht : c.task id = .ok t) :
    (find id ifAbsent >>= f).requests now c = (.task id, c) :: (f (some t)).requests now c := by
  rw [find_bind, requests_call]
  simp only [Catalog.answer_task, ht]

theorem calls_find_absent (ht : c.task id = .error (.of (.noTask id))) :
    (find id ifAbsent >>= f).calls now c = .task :: (ifAbsent >>= fun _ => f none).calls now c := by
  rw [find_bind]
  simp only [calls, Catalog.answer_task, ht]
  rfl

end Siblings

/-! ### Removals -/

namespace Tasks

/-- The rest of a removal, once its task has been found twice. -/
def removal (id : Uuid) (t : Task) : Program (Option Task) := do
  match ← inContext (.deletingTask t.id) (some <$> Siblings.removeStored t) with
  | none => return none
  | some t =>
    say .info (s!"Deleted task: id={id.text}, name='" ++ t.name ++ "'")
    return some t

theorem relays_removal {G : Failure → Prop} (id : Uuid) (t : Task) : (removal id t).Relays G 1 := by
  have hremoved : (inContext (.deletingTask t.id) (some <$> Siblings.removeStored t)).Steady
      (fun _ => True) G 1 := (Siblings.steady_removeStored (k := 0) t).map.inContext _
  refine (hremoved.bind fun removed => ?_).relays
  split
  · exact regular_pure _
  · exact (regular_log _ _ _).bind fun _ => regular_pure _

/-- A removal looks for its task twice, before and after it has got the project. -/
theorem alone_delete (id : Uuid) : Plan.alone (delete id) =
    Siblings.find id (say .warning s!"Task {id.text} does not exist, nothing to do") >>= fun
      | none => pure none
      | some t => .note (Plan.acquired t.project)
        (Siblings.find id
          (Siblings.say .warning s!"Task {id.text} does not exist, nothing to delete") >>= fun
          | none => pure none
          | some t => removal id t) := by
  unfold delete
  rw [Plan.alone_bind]
  refine congrArg (Siblings.find id _).bind (funext fun found => ?_)
  cases found with
  | none => rfl
  | some t =>
    refine congrArg (Program.note (Plan.acquired t.project)) ?_
    unfold Siblings.remove
    refine (Program.bind_assoc (Siblings.find id _) _ _).trans
      (congrArg (Siblings.find id _).bind (funext fun found => ?_))
    cases found with
    | none => rfl
    | some t => rfl

/-- A removal of a stored task, with a fault ahead that strikes neither look. -/
theorem inject_delete_stored (ht : c.task id = .ok t) {left : Fault}
    (hpass : fault.pass? [.task, .task] = some left) :
    ((Plan.alone (delete id)).inject (some fault)).outcome now c =
      ((removal id t).inject (some left)).outcome now c := by
  obtain ⟨between, hpast, hpass⟩ := Option.bind_eq_some_iff.1 hpass
  have hpast' : between.past? .task = some left := (Option.bind_fun_some _).symm.trans hpass
  rw [alone_delete, Siblings.inject_find_stored ht hpast]
  change ((Siblings.find id _ >>= _).inject (some between)).outcome now c = _
  rw [Siblings.inject_find_stored ht hpast']

theorem requests_delete_stored (ht : c.task id = .ok t) :
    (Plan.alone (delete id)).requests now c =
      (.task id, c) :: (.task id, c) :: (removal id t).requests now c := by
  rw [alone_delete, Siblings.requests_find_stored ht]
  change _ :: (Siblings.find id _ >>= _).requests now c = _
  rw [Siblings.requests_find_stored ht]

theorem calls_delete_absent (ht : c.task id = .error (.of (.noTask id))) :
    (Plan.alone (delete id)).calls now c = [.task] := by
  rw [alone_delete, Siblings.calls_find_absent ht]
  rfl

/-- If a fault in a removal strikes one of the two looks and tells that there is no such task, the
removal finds nothing to remove. -/
theorem overlooked_delete (hfault : fault.failure.isProblem .taskNotFound = true)
    (hmethod : fault.method = .task) (hnumber : 1 ≤ fault.number) (hlook : fault.number ≤ 2)
    (hcall : fault.number ≤ ((Plan.alone (delete id)).calls now c).count .task) :
    ((Plan.alone (delete id)).inject (some fault)).outcome now c = (.ok (none, none), c) := by
  obtain ⟨kind, number, failure⟩ := fault
  dsimp only at hfault hmethod hnumber hlook hcall
  subst hmethod
  obtain rfl | rfl : number = 1 ∨ number = 2 := by omega
  · rw [alone_delete, Siblings.inject_find_struck hfault rfl]
    rfl
  · rcases c.task_ok_or id with ⟨t, ht⟩ | ht
    · have hpast : (⟨.task, 2, failure⟩ : Fault).past? .task = some ⟨.task, 1, failure⟩ := rfl
      rw [alone_delete, Siblings.inject_find_stored ht hpast]
      change ((Siblings.find id _ >>= _).inject _).outcome now c = _
      rw [Siblings.inject_find_struck hfault rfl]
      rfl
    · -- there is no second look
      rw [calls_delete_absent ht] at hcall
      exact absurd hcall (by decide)

/-- A fault in a removal that strikes any other call is the end of the removal. -/
theorem struck_delete {before after : List (Store.Call × Catalog)} {request : Store.Call}
    {c' : Catalog} (hlate : ¬ (fault.method = .task ∧ fault.number ≤ 2))
    (hmade : (Plan.alone (delete id)).requests now c = before ++ (request, c') :: after)
    (hstrikes : fault.Strikes before request c') :
    ∃ e, ((Plan.alone (delete id)).inject (some fault)).outcome now c = (.error e, c') ∧
      fault.failure.Within 1 e := by
  obtain ⟨hnumber, hcall⟩ := hstrikes.bounds after
  rw [← hmade, ← calls_eq] at hcall
  have hlooks : [Store.Method.task, .task].count fault.method < fault.number := by
    by_cases htask : fault.method = .task
    · rw [htask]
      exact Nat.not_le.1 fun hle => hlate ⟨htask, hle⟩
    · rw [List.count_eq_zero.2 (by simp [htask])]
      exact hnumber
  rcases c.task_ok_or id with ⟨t, ht⟩ | ht
  · rw [requests_delete_stored ht] at hmade
    have hsplit : [(.task id, c), (.task id, c)] ++ (removal id t).requests now c =
        before ++ (request, c') :: after := hmade
    obtain ⟨between, left, hrest, hpass, hfailure, hleft⟩ := hstrikes.behind hsplit hlooks
    rw [inject_delete_stored ht hpass, ← hfailure]
    exact (relays_removal id t).outcome_struck (G := fun _ => True) trivial hrest hleft
  · -- there is no other call than the first look
    rw [calls_delete_absent ht] at hcall
    have hless := (List.sublist_cons_self Store.Method.task [.task]).count_le fault.method
    exact absurd (Nat.le_trans hcall hless) (Nat.not_le.2 hlooks)

end Tasks

/-! ### Operations -/

namespace Operation

/-- What comes of an operation with a fault in it, with nobody else around. -/
def struck (on : Occasion) (fault : Fault) (op : Operation) (c : Catalog) :
    Except Failure Answer × Catalog :=
  (Plan.alone (Plan.inject (some fault) (op.plan on))).outcome on.now c

/-- The fault is overlooked: it tells a removal, in one of the two looks for the task, that there is
no such task. -/
def Overlooks (op : Operation) (fault : Fault) : Prop :=
  (∃ id, op = .delete id) ∧ fault.method = .task ∧ fault.number ≤ 2 ∧
    ∃ p, fault.failure = .problem p ∧ p.kind = .taskNotFound

theorem struck_eq (on : Occasion) (fault : Fault) (op : Operation) (c : Catalog) :
    op.struck on fault c =
      (((((Plan.alone (op.plan on)).inject (some fault)).outcome on.now c).1.map Prod.fst),
        (((Plan.alone (op.plan on)).inject (some fault)).outcome on.now c).2) := by
  rw [struck, Plan.alone_inject, outcome_map]

/-- **No failure is lost** that strikes a request of an operation, in whatever state the records
are: the operation fails with it, in one context at most, and leaves the records as the request met
them, unless it overlooks the fault. -/
theorem struck_at (on : Occasion) (op : Operation) (c : Catalog) {fault : Fault}
    {before after : List (Store.Call × Catalog)} {request : Store.Call} {c' : Catalog}
    (hmade : (Plan.alone (op.plan on)).requests on.now c = before ++ (request, c') :: after)
    (hstrikes : fault.Strikes before request c') :
    (op.Overlooks fault ∧ op.struck on fault c = (.ok .nothing, c)) ∨
      (¬ op.Overlooks fault ∧
        ∃ e, op.struck on fault c = (.error e, c') ∧ fault.failure.Within 1 e) := by
  rw [struck_eq]
  by_cases hremoval : (∃ id, op = .delete id) ∧ fault.failure.isProblem .taskNotFound = true
  · obtain ⟨⟨id, rfl⟩, habsent⟩ := hremoval
    have hplan : Plan.alone ((Operation.delete id).plan on) =
        Answer.ofTask? <$> Plan.alone (Tasks.delete id) := by rw [plan, Plan.alone_map]
    rw [hplan, requests_map] at hmade
    rw [hplan, inject_map, outcome_map]
    by_cases hlook : fault.method = .task ∧ fault.number ≤ 2
    · left
      obtain ⟨hnumber, hcall⟩ := hstrikes.bounds after
      rw [← hmade, ← calls_eq, hlook.1] at hcall
      rw [Tasks.overlooked_delete habsent hlook.1 hnumber hlook.2 hcall]
      exact ⟨⟨⟨id, rfl⟩, hlook.1, hlook.2, Failure.isProblem_taskNotFound_iff.1 habsent⟩, rfl⟩
    · right
      obtain ⟨e, he, hwithin⟩ := Tasks.struck_delete hlook hmade hstrikes
      rw [he]
      exact ⟨fun h => hlook ⟨h.2.1, h.2.2.1⟩, e, rfl, hwithin⟩
  · right
    have hsteady := steady_of_delete (P := fun _ => True) (G := fun e => e = fault.failure) (k := 0)
      (fun _ _ => trivial)
      (fun id hid e he => he ▸ Bool.eq_false_iff.2 fun h => hremoval ⟨⟨id, hid⟩, h⟩) on
    obtain ⟨e, he, hwithin⟩ := hsteady.relays.outcome_struck rfl hmade hstrikes
    refine ⟨fun h => hremoval ⟨h.1, Failure.isProblem_taskNotFound_iff.2 h.2.2.2⟩, e, ?_, hwithin⟩
    rw [he]
    rfl

/-- A call of an operation that is struck belongs to one of its requests. -/
theorem struck_cases (on : Occasion) (op : Operation) (c : Catalog) {fault : Fault}
    (hnumber : 1 ≤ fault.number)
    (hcall : fault.number ≤ ((Plan.alone (op.plan on)).calls on.now c).count fault.method) :
    (op.Overlooks fault ∧ op.struck on fault c = (.ok .nothing, c)) ∨
      (¬ op.Overlooks fault ∧
        ∃ e, (op.struck on fault c).1 = .error e ∧ fault.failure.Within 1 e) := by
  rw [calls_eq] at hcall
  obtain ⟨before, request, c', after, hmade, hstrikes⟩ := Fault.exists_strikes hnumber hcall
  refine (op.struck_at on c hmade hstrikes).imp_right fun ⟨hnot, e, he, hwithin⟩ => ?_
  exact ⟨hnot, e, congrArg Prod.fst he, hwithin⟩

/-- **Failures keep their class.**  Let a call that an operation makes fail, in whatever state the
records are.  Then the operation fails: with a problem of the same class, as it is or behind one
context, or with what is no problem as it is.  The one exception is a removal that is told by one of
its two looks that there is no such task: it answers with nothing and changes nothing. -/
theorem failures_kept (on : Occasion) (op : Operation) (c : Catalog) {fault : Fault}
    (hnumber : 1 ≤ fault.number)
    (hcall : fault.number ≤ ((Plan.alone (op.plan on)).calls on.now c).count fault.method) :
    (op.Overlooks fault ∧ op.struck on fault c = (.ok .nothing, c)) ∨
      (¬ op.Overlooks fault ∧ ∃ e, (op.struck on fault c).1 = .error e ∧
        match fault.failure with
        | .problem p => ∃ p' : Problem, e = .problem p' ∧ p'.kind = p.kind ∧ (p' = p ∨
          ∃ context : Problem.Context,
            p' = p.inContext context ∧ p'.message = context.text ++ ": " ++ p.message)
        | failure => e = failure) := by
  refine (op.struck_cases on c hnumber hcall).imp_right fun ⟨hnot, e, he, hwithin⟩ => ?_
  refine ⟨hnot, e, he, ?_⟩
  split
  · rename_i p hp
    rw [hp] at hwithin
    exact hwithin.of_problem
  · rename_i hother
    refine hwithin.eq_of_inContext fun context => ?_
    cases hfailure : fault.failure with
    | problem p => exact absurd hfailure (hother p)
    | _ => rfl

/-- A task with one below it. -/
def nest : Catalog where
  tasks := [⟨⟨2#128⟩, "Sweep", ⟨1#128⟩, none, .pending, 0, ⟨2⟩, ⟨2⟩⟩,
    ⟨⟨3#128⟩, "Mop", ⟨1#128⟩, some ⟨2#128⟩, .pending, 0, ⟨3⟩, ⟨3⟩⟩]
  projects := [⟨⟨1#128⟩, "Home", ⟨1⟩⟩]

/-- Word from outside that something is missing. -/
def lost : Problem := .of (.reported .notFound "lost")

/-- Completing the upper task writes both, and the second write is told that something is lost. -/
theorem failures_kept_nest :
    2 ≤ ((Plan.alone ((Operation.complete ⟨2#128⟩).plan ⟨⟨4⟩, ⟨4#128⟩⟩)).calls ⟨4⟩ nest).count
        .setStatus ∧
      ∃ e, ((Operation.complete ⟨2#128⟩).struck ⟨⟨4⟩, ⟨4#128⟩⟩
          ⟨.setStatus, 2, .problem lost⟩ nest).1 = .error e ∧
        ∃ p' : Problem, e = .problem p' ∧ p'.kind = lost.kind ∧ (p' = lost ∨
          ∃ context : Problem.Context,
            p' = lost.inContext context ∧ p'.message = context.text ++ ": " ++ lost.message) := by
  have hcall : 2 ≤ ((Plan.alone ((Operation.complete ⟨2#128⟩).plan ⟨⟨4⟩, ⟨4#128⟩⟩)).calls ⟨4⟩
      nest).count .setStatus := by decide
  have hkept := @failures_kept ⟨⟨4⟩, ⟨4#128⟩⟩ (.complete ⟨2#128⟩) nest
    ⟨.setStatus, 2, .problem lost⟩ (by decide) hcall
  rcases hkept with ⟨⟨⟨id, hid⟩, -⟩, -⟩ | ⟨-, hkept⟩
  · cases hid
  · exact ⟨hcall, hkept⟩

end Operation

end Agenda
