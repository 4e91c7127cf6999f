import Agenda.Proofs.Program.Outcome
import Agenda.Proofs.Program.Relays
import Mathlib.Data.List.Induction

/-!
# Where a fault strikes

A fault is meant for one call of a program: the one that comes as a given number among its kind.
`Program.requests` lists the requests that a program makes from a state of the store, each with the
store that it meets, and `Program.calls` the calls that they come to, those included that the store
makes of itself; the fault strikes the request with which there are enough of its kind
(`Fault.Strikes`).

**A fault that strikes is the end** (`Program.Relays.outcome_struck`).  If a program passes the
failure of a fault on, and the fault strikes a request, the program fails with that failure, in a
few contexts at most, and the store stays as the request met it.  A fault that strikes no request
makes no difference (`Program.outcome_unstruck`).  The argument counts: behind each call the fault
that is still to come has as much less to wait as there have been calls of its kind
(`Fault.pass?_eq`).
-/

namespace Agenda

namespace Fault

/-- The fault that is still to come, seen from behind some calls; `none` if it strikes one of
them. -/
def pass? (fault : Fault) : List Store.Method → Option Fault
  | [] => some fault
  | method :: methods => (fault.past? method).bind fun left => left.pass? methods

/-- **Counting down.**  A fault strikes some calls if enough of them are of its kind; otherwise it
has so much less to wait. -/
theorem pass?_eq (fault : Fault) (methods : List Store.Method) :
    fault.pass? methods =
      if 1 ≤ fault.number ∧ fault.number ≤ methods.count fault.method then none
      else some { fault with number := fault.number - methods.count fault.method } := by
  induction methods generalizing fault with
  | nil =>
    have hnone : ¬ (1 ≤ fault.number ∧ fault.number ≤ 0) := by omega
    rw [pass?, List.count_nil, if_neg hnone, Nat.sub_zero]
  | cons method methods ih =>
    obtain ⟨kind, number, failure⟩ := fault
    rw [pass?, past?]
    by_cases hkind : kind = method
    · subst hkind
      rw [if_neg (fun hother => hother rfl), List.count_cons_self]
      by_cases hone : number = 1
      · rw [if_pos hone, if_pos (by dsimp only; omega)]
        rfl
      · rw [if_neg hone, Option.bind_some, ih]
        dsimp only
        -- a fault with the number zero is past already
        by_cases hstruck : 1 ≤ number ∧ number ≤ methods.count kind + 1
        · rw [if_pos hstruck, if_pos (by omega)]
        · rw [if_neg hstruck, if_neg (by omega), Nat.sub_sub, Nat.add_comm 1]
    · rw [if_pos hkind, Option.bind_some, List.count_cons_of_ne (Ne.symm hkind), ih]

end Fault

namespace Program

variable {α β σ : Type} [Store.Backend σ] {now : Instant} {s : σ}

/-- The calls that a request comes to in a state of the store. -/
def callsOf (request : Store.Call) (s : σ) : List Store.Method :=
  request.method :: (Store.Backend.further request s).toList

/-- The calls that a program makes from a state of the store. -/
def calls (now : Instant) : Program α → σ → List Store.Method
  | .done _, _ => []
  | .call request next, s =>
    let (reply, s') := Store.Backend.answer now request s
    callsOf request s ++ (next reply).calls now s'
  | .note _ next, s => next.calls now s
  | .size next, s => (next (Store.Backend.size s)).calls now s
  | .further request next, s => (next (Store.Backend.further request s)).calls now s

/-! ### Requests -/

/-- The requests that a program makes from a state of the store, each with the store that it
meets. -/
def requests (now : Instant) : Program α → σ → List (Store.Call × σ)
  | .done _, _ => []
  | .call request next, s =>
    let (reply, s') := Store.Backend.answer now request s
    (request, s) :: (next reply).requests now s'
  | .note _ next, s => next.requests now s
  | .size next, s => (next (Store.Backend.size s)).requests now s
  | .further request next, s => (next (Store.Backend.further request s)).requests now s

theorem requests_call (request : Store.Call) (next : Except Failure request.Reply → Program α) :
    (call request next).requests now s =
      (request, s) :: (next (Store.Backend.answer now request s).1).requests now
        (Store.Backend.answer now request s).2 := rfl

/-- The calls that some requests come to. -/
def callsOfAll (made : List (Store.Call × σ)) : List Store.Method :=
  made.flatMap fun x => callsOf x.1 x.2

theorem callsOfAll_append (made later : List (Store.Call × σ)) :
    callsOfAll (made ++ later) = callsOfAll made ++ callsOfAll later := List.flatMap_append

theorem callsOfAll_cons (request : Store.Call) (s : σ) (later : List (Store.Call × σ)) :
    callsOfAll ((request, s) :: later) = callsOf request s ++ callsOfAll later := rfl

theorem calls_eq (now : Instant) (p : Program α) (s : σ) :
    p.calls now s = callsOfAll (p.requests now s) := by
  induction p generalizing s with
  | done result => rfl
  | call request next ih =>
    exact congrArg (callsOf request s ++ ·) (ih _ _)
  | note entry next ih => exact ih s
  | size next ih => exact ih _ s
  | further request next ih => exact ih _ s

/-- One program after another: the second one makes its requests where the first one got to. -/
theorem requests_bind (p : Program α) (f : α → Program β) :
    (p >>= f).requests now s = p.requests now s ++
      match p.outcome now s with
      | (.ok a, s') => (f a).requests now s'
      | (.error _, _) => [] := by
  change (p.bind f).requests now s = _
  induction p generalizing s with
  | done result => cases result <;> rfl
  | call request next ih => exact congrArg ((request, s) :: ·) (ih _)
  | note entry next ih => exact ih
  | size next ih => exact ih _
  | further request next ih => exact ih _

theorem requests_bind_of_ok {p : Program α} {f : α → Program β} {a : α} {s' : σ}
    (h : p.outcome now s = (.ok a, s')) :
    (p >>= f).requests now s = p.requests now s ++ (f a).requests now s' := by
  rw [requests_bind, h]

/-- Putting a result differently takes no requests. -/
theorem requests_map (f : α → β) (p : Program α) :
    (f <$> p).requests now s = p.requests now s := by
  rw [map_eq_pure_bind, requests_bind]
  generalize p.outcome now s = ran
  obtain ⟨r, s'⟩ := ran
  cases r <;> exact List.append_nil _

/-- Putting a problem differently takes no requests. -/
theorem requests_inContext (c : Problem.Context) (p : Program α) :
    (inContext c p).requests now s = p.requests now s := by
  change (p.handle _).requests now s = _
  induction p generalizing s with
  | done result => cases result <;> rfl
  | call request next ih => exact congrArg ((request, s) :: ·) (ih _)
  | note entry next ih => exact ih
  | size next ih => exact ih _
  | further request next ih => exact ih _

/-- A call with a fault ahead: the call is struck, or it is made and the fault is still to come. -/
theorem run_inject_call (now : Instant) (fault : Fault) (request : Store.Call)
    (next : Except Failure request.Reply → Program α) (s : σ) :
    ((call request next).inject (some fault)).run now s =
      match fault.pass? (callsOf request s) with
      | none => ((next (.error fault.failure)).inject none).run now s
      | some left => (call request fun reply => (next reply).inject (some left)).run now s := by
  have hpass : (fault.past? request.method).bind (fun left =>
      (Store.Backend.further request s).elim (some left) left.past?) =
        fault.pass? (callsOf request s) := by
    refine congrArg (fault.past? request.method).bind (funext fun left => ?_)
    cases Store.Backend.further request s with
    | none => rfl
    | some method => exact (Option.bind_fun_some _).symm
  rw [inject, run, hpass]
  cases fault.pass? (callsOf request s) <;> rfl

end Program

/-! ### Strikes -/

open Program

variable {α σ : Type} [Store.Backend σ] {G : Failure → Prop} {n : Nat} {now : Instant} {s : σ}
  {fault : Fault}

/-- Some requests have been made, and the fault is meant for one of the calls that the next one
comes to. -/
def Fault.Strikes (fault : Fault) (before : List (Store.Call × σ)) (request : Store.Call) (s : σ) :
    Prop :=
  (callsOfAll before).count fault.method < fault.number ∧
    fault.number ≤ (callsOfAll before).count fault.method +
      (callsOf request s).count fault.method

/-- A fault that strikes a request strikes one of the calls of all requests. -/
theorem Fault.Strikes.bounds {before : List (Store.Call × σ)} {request : Store.Call}
    (h : fault.Strikes before request s) (after : List (Store.Call × σ)) :
    1 ≤ fault.number ∧
      fault.number ≤ (callsOfAll (before ++ (request, s) :: after)).count fault.method := by
  rw [callsOfAll_append, callsOfAll_cons, List.count_append, List.count_append]
  obtain ⟨hbefore, hhere⟩ := h
  omega

/-- If a fault strikes none of the first requests, what is left of it behind them strikes the same
request. -/
theorem Fault.Strikes.behind {first rest before after : List (Store.Call × σ)}
    {request : Store.Call} (h : fault.Strikes before request s)
    (hmade : first ++ rest = before ++ (request, s) :: after)
    (hpast : (callsOfAll first).count fault.method < fault.number) :
    ∃ between left, rest = between ++ (request, s) :: after ∧
      fault.pass? (callsOfAll first) = some left ∧ left.failure = fault.failure ∧
      left.Strikes between request s := by
  obtain ⟨between, rfl, hrest⟩ : ∃ between, before = first ++ between ∧
      rest = between ++ (request, s) :: after := by
    rcases List.append_eq_append_iff.1 hmade with hsplit | ⟨middle, rfl, hmiddle⟩
    · exact hsplit
    cases middle with
    | nil => exact ⟨[], by simp, hmiddle.symm⟩
    | cons struck middle =>
      obtain ⟨rfl, -⟩ := List.cons.inj hmiddle
      exact absurd (h.bounds middle).2 (Nat.not_le.2 hpast)
  refine ⟨between, _, hrest, (fault.pass?_eq _).trans (if_neg (by omega)), rfl, ?_⟩
  obtain ⟨hbefore, hhere⟩ := h
  rw [callsOfAll_append, List.count_append] at hbefore hhere
  constructor <;> dsimp only <;> omega

/-- If there are enough calls of the kind of a fault, one of the requests is struck. -/
theorem Fault.exists_strikes {made : List (Store.Call × σ)} (hnumber : 1 ≤ fault.number)
    (hcall : fault.number ≤ (callsOfAll made).count fault.method) :
    ∃ before request s after, made = before ++ (request, s) :: after ∧
      fault.Strikes before request s := by
  -- from the last request back to the one with which there are enough
  induction made using List.reverseRecOn with
  | nil =>
    have hnone : fault.number ≤ 0 := hcall
    omega
  | append_singleton made last ih =>
    by_cases hearlier : fault.number ≤ (callsOfAll made).count fault.method
    · obtain ⟨before, request, s, after, rfl, hstrikes⟩ := ih hearlier
      exact ⟨before, request, s, after ++ [last], by simp, hstrikes⟩
    · obtain ⟨request, s⟩ := last
      refine ⟨made, request, s, [], rfl, Nat.not_le.1 hearlier, ?_⟩
      rwa [callsOfAll_append, List.count_append, callsOfAll_cons, List.count_append] at hcall

namespace Program

/-- **A fault that strikes is the end** of a program that passes its failure on.  The store stays as
the request met it that the fault strikes. -/
theorem Relays.outcome_struck {p : Program α} (hp : p.Relays G n) (hG : G fault.failure)
    {before after : List (Store.Call × σ)} {request : Store.Call} {s' : σ}
    (hmade : p.requests now s = before ++ (request, s') :: after)
    (hstrikes : fault.Strikes before request s') :
    ∃ e, (p.inject (some fault)).outcome now s = (.error e, s') ∧ fault.failure.Within n e := by
  induction p generalizing fault s before with
  | done result => exact absurd hmade.symm (by simp [requests])
  | note entry next ih => exact ih hp hG hmade hstrikes
  | size next ih => exact ih _ (hp _) hG hmade hstrikes
  | further request next ih => exact ih _ (hp _) hG hmade hstrikes
  | call first next ih =>
    rw [outcome, run_inject_call, Fault.pass?_eq]
    obtain ⟨hbefore, hhere⟩ := hstrikes
    cases before with
    | nil =>
      -- the request is struck, and no other one follows
      obtain ⟨hfirst, -⟩ := List.cons.inj hmade
      obtain ⟨rfl, rfl⟩ := Prod.mk.inj hfirst
      have hstruck : 1 ≤ fault.number ∧ fault.number ≤ (callsOf first s).count fault.method :=
        ⟨hbefore, by simpa [callsOfAll] using hhere⟩
      obtain ⟨e, log, he, hrun⟩ := ((hp.1 _ hG).inject none).run (σ := σ) now
      rw [if_pos hstruck]
      exact ⟨e, congrArg (fun ran => (ran.result, ran.store)) (hrun s), he⟩
    | cons made before =>
      obtain ⟨rfl, hrest⟩ := List.cons.inj hmade
      rw [callsOfAll_cons, List.count_append] at hbefore hhere
      rw [if_neg (by omega)]
      exact @ih _ _ { fault with number := _ } (hp.2 _) hG _ hrest
        ⟨by dsimp only; omega, by dsimp only; omega⟩

theorem outcome_inject_none (p : Program α) :
    (p.inject none).outcome now s = ((p.outcome now s).1.map (·, none), (p.outcome now s).2) := by
  induction p generalizing s with
  | done result => rfl
  | call request next ih => exact ih _
  | note entry next ih => exact ih
  | size next ih => exact ih _
  | further request next ih => exact ih _

/-- **A fault that strikes no request** makes no difference. -/
theorem outcome_unstruck {p : Program α}
    (hno : ¬ (1 ≤ fault.number ∧ fault.number ≤ (p.calls now s).count fault.method)) :
    ∃ left, (p.inject (some fault)).outcome now s =
      ((p.outcome now s).1.map (·, left), (p.outcome now s).2) := by
  induction p generalizing fault s with
  | done result => exact ⟨some fault, rfl⟩
  | note entry next ih => exact ih hno
  | size next ih => exact ih _ hno
  | further request next ih => exact ih _ hno
  | call request next ih =>
    rw [calls, List.count_append] at hno
    rw [outcome, run_inject_call, Fault.pass?_eq, if_neg (by omega)]
    exact @ih (Store.Backend.answer now request s).1 (Store.Backend.answer now request s).2
      { fault with number := _ } (by dsimp only; omega)

end Program

end Agenda
