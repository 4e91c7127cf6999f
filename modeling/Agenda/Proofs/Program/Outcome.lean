import Agenda.Proofs.Program.Plan

/-!
# Outcomes

The outcome of a run is its result and the store at its end; the log is left out.  Where two runs
are compared and their logs may differ, outcomes are what is compared.  There is one law for each
way of putting programs together, as for `Program.Meets`.
-/

namespace Agenda

namespace Program

variable {σ α β : Type}

/-- What follows an outcome: it goes on with a result, and a failure is the end. -/
def follow (ran : Except Failure α × σ) (f : α → σ → Except Failure β × σ) :
    Except Failure β × σ :=
  match ran with
  | (.ok a, s) => f a s
  | (.error e, s) => (.error e, s)

@[simp] theorem follow_ok (a : α) (f : α → σ → Except Failure β × σ) :
    follow (.ok a, s) f = f a s := rfl

@[simp] theorem follow_error (e : Failure) (f : α → σ → Except Failure β × σ) :
    follow (.error e, s) f = (.error e, s) := rfl

variable [Store.Backend σ] {now : Instant} {s : σ}

/-- The result of a run and the store at its end. -/
def outcome (now : Instant) (p : Program α) (s : σ) : Except Failure α × σ :=
  ((p.run now s).result, (p.run now s).store)

@[simp] theorem outcome_pure (a : α) : (pure a : Program α).outcome now s = (.ok a, s) := rfl

@[simp] theorem outcome_fail (e : Failure) :
    (fail e : Program α).outcome now s = (.error e, s) := rfl

@[simp] theorem outcome_ask (request : Store.Call) :
    (ask request).outcome now s = Store.Backend.answer now request s := rfl

theorem outcome_call (request : Store.Call) (next : Except Failure request.Reply → Program α) :
    (call request next).outcome now s =
      (next (Store.Backend.answer now request s).1).outcome now
        (Store.Backend.answer now request s).2 := rfl

@[simp] theorem outcome_note (entry : Log.Record) (p : Program α) :
    (note entry p).outcome now s = p.outcome now s := rfl

/-- What is met at the end of a run is its outcome. -/
theorem Meets.outcome_eq {S : σ → Prop} {p : Program α} {r : Except Failure α} {s' : σ}
    (h : p.Meets now S (fun r' s'' => r' = r ∧ s'' = s') s) : p.outcome now s = (r, s') :=
  Prod.ext h.run.1 h.run.2

/-- One program after another. -/
theorem outcome_bind (p : Program α) (f : α → Program β) :
    (p >>= f).outcome now s = follow (p.outcome now s) fun a s' => (f a).outcome now s' := by
  show (p.bind f).outcome now s = _
  induction p generalizing s with
  | done result => cases result <;> rfl
  | call request next ih => exact ih _
  | note entry next ih => exact ih
  | size next ih => exact ih _
  | further request next ih => exact ih _

/-- A program, and another one in case of its failure. -/
theorem outcome_handle (p : Program α) (f : Failure → Program α) :
    (p.handle f).outcome now s =
      match p.outcome now s with
      | (.ok a, s') => (.ok a, s')
      | (.error e, s') => (f e).outcome now s' := by
  induction p generalizing s with
  | done result => cases result <;> rfl
  | call request next ih => exact ih _
  | note entry next ih => exact ih
  | size next ih => exact ih _
  | further request next ih => exact ih _

theorem outcome_map (f : α → β) (p : Program α) :
    (f <$> p).outcome now s = ((p.outcome now s).1.map f, (p.outcome now s).2) := by
  rw [map_eq_pure_bind, outcome_bind]
  generalize p.outcome now s = ran
  obtain ⟨r, s'⟩ := ran
  cases r <;> rfl

theorem outcome_inContext (c : Problem.Context) (p : Program α) :
    (inContext c p).outcome now s =
      ((p.outcome now s).1.mapError (Failure.inContext c), (p.outcome now s).2) := by
  rw [inContext, outcome_handle]
  generalize p.outcome now s = ran
  obtain ⟨r, s'⟩ := ran
  cases r <;> rfl

theorem outcome_ofExcept (r : Except Problem α) :
    (ofExcept r).outcome now s = (r.mapError .problem, s) := by
  cases r <;> rfl

end Program

namespace Plan

open Program

variable {σ α β : Type} [Store.Backend σ] {now : Instant} {s : σ}

/-- Carrying out a plan alone is making it, and then the rest. -/
theorem outcome_alone (p : Program (Plan α)) :
    (alone p).outcome now s = follow (p.outcome now s) fun plan s' => plan.rest.outcome now s' :=
  outcome_bind p rest

/-- A program that was made a plan never waits for a project. -/
theorem outcome_ofProgram_ne (p : Program α) (project : Uuid) (body : Program α) :
    ((ofProgram p).outcome now s).1 ≠ .ok (.exclusive project body) := by
  show ((p >>= fun a => (pure (Plan.settled a) : Program (Plan α))).outcome now s).1 ≠ _
  rw [outcome_bind]
  generalize p.outcome now s = ran
  obtain ⟨r, s'⟩ := ran
  cases r with
  | ok a => exact fun h => nomatch h
  | error e => exact fun h => nomatch h

/-- If a plan with its answer put differently waits for a project, so does the plan itself. -/
theorem outcome_map_exclusive {f : α → β} {p : Program (Plan α)} {project : Uuid}
    {body : Program β} {s' : σ}
    (h : (Plan.map f p).outcome now s = (.ok (.exclusive project body), s')) :
    ∃ body', p.outcome now s = (.ok (.exclusive project body'), s') ∧ body = f <$> body' := by
  change (p >>= _).outcome now s = _ at h
  rw [outcome_bind] at h
  generalize p.outcome now s = ran at h
  obtain ⟨r, s''⟩ := ran
  rcases r with e | (a | ⟨project', body'⟩)
  · cases h
  · cases h
  · cases h
    refine ⟨body', rfl, ?_⟩
    rw [map_eq_pure_bind]
    rfl

end Plan

end Agenda
