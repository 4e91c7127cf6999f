import Agenda.Program.Fault
import Agenda.Proofs.Program.Plan

/-!
# Faults in programs put together

A fault that has not struck in the first of two programs goes on to the second one
(`Program.inject_bind`).  So it makes no difference whether a fault is put into a plan or into the
operation that the plan comes to with nobody else around (`Plan.alone_inject`).
-/

namespace Agenda

open Program

variable {α β : Type}

/-- What is left of a fault after one program is put into the next. -/
theorem Program.inject_bind (fault : Option Fault) (p : Program α) (f : α → Program β) :
    (p >>= f).inject fault = p.inject fault >>= fun x => (f x.1).inject x.2 := by
  change (p.bind f).inject fault = (p.inject fault).bind _
  induction p generalizing fault with
  | done result =>
    cases result with
    | ok a => cases fault <;> rfl
    | error e => cases fault <;> rfl
  | note entry next ih => cases fault <;> exact congrArg (note entry) (ih _)
  | size next ih => cases fault <;> exact congrArg size (funext fun n => ih n _)
  | further request next ih =>
    cases fault <;> exact congrArg (further request) (funext fun method => ih method _)
  | call request next ih =>
    cases fault with
    | none => exact congrArg (call request) (funext fun reply => ih reply none)
    | some fault =>
      -- the fault strikes the call, or it is counted down and goes on
      simp only [Program.bind, inject]
      refine congrArg (further request) (funext fun method => ?_)
      generalize ((fault.past? request.method).bind fun left =>
        method.elim (some left) left.past?) = past
      cases past with
      | none => exact ih _ none
      | some left => exact congrArg (call request) (funext fun reply => ih reply (some left))

/-- A fault has nothing to do with how a result is put. -/
theorem Program.inject_map (fault : Option Fault) (f : α → β) (p : Program α) :
    (f <$> p).inject fault = (fun x => (f x.1, x.2)) <$> p.inject fault := by
  rw [map_eq_pure_bind, inject_bind, map_eq_pure_bind]
  refine congrArg (p.inject fault).bind (funext fun x => ?_)
  obtain ⟨a, left⟩ := x
  cases left <;> rfl

/-- **A fault in a plan** is the fault in the operation from beginning to end. -/
theorem Plan.alone_inject (fault : Option Fault) (p : Program (Plan α)) :
    alone (inject fault p) = Prod.fst <$> (alone p).inject fault := by
  have hwhole : (alone p).inject fault = p.inject fault >>= fun x => x.1.rest.inject x.2 :=
    inject_bind fault p rest
  have hparts : alone (inject fault p) = p.inject fault >>= fun x =>
      Prod.fst <$> x.1.rest.inject x.2 := by
    unfold alone inject
    rw [Program.bind_assoc]
    refine congrArg (p.inject fault).bind (funext fun x => ?_)
    obtain ⟨plan, left⟩ := x
    cases plan with
    | settled a => cases left <;> rfl
    | exclusive project body =>
      have hrest : (Plan.exclusive project body).rest.inject left =
          note (acquired project) (body.inject left) := by
        cases left <;> rfl
      rw [hrest, map_eq_pure_bind]
      rfl
  rw [hparts, hwhole, map_bind]

end Agenda
