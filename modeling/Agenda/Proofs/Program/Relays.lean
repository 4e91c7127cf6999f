import Agenda.Engine.Siblings
import Agenda.Program.Fault
import Agenda.Proofs.Program.Meets

/-!
# Failures that pass through

A store may fail in ways that no operation has an answer to: a number that does not fit, a request
made to fail from outside.  `p.Relays G n` says that a failure of the kind `G` that some request of
`p` meets is the end of `p`: no request follows, and `p` fails with this failure, put into at most
`n` contexts.  What a program does about other failures is left open; looking for a task, for one,
takes it in its stride that there is none.

`p.Regular K F G n` joins this to `Program.Asks`, and there is one law for each way of putting
programs together, so that an operation is walked through once for both.
-/

namespace Agenda

/-- The second failure is the first one, put into at most a number of contexts. -/
def Failure.Within (n : Nat) (e e' : Failure) : Prop :=
  ∃ contexts : List Problem.Context, contexts.length ≤ n ∧ e' = contexts.foldr Failure.inContext e

/-- The failure is that of a record which does not pass its check. -/
def Failure.IsRefusal (e : Failure) : Prop := ∃ subject errors, e = .refused subject errors

/-- A database cannot take something: a number does not fit, or a text cannot be written. -/
def Failure.IsUnfit : Failure → Prop
  | .overflow | .unwritable _ => True
  | _ => False

namespace Failure.Within

variable {n : Nat} {e e' : Failure}

theorem refl (n : Nat) (e : Failure) : Within n e e := ⟨[], Nat.zero_le n, rfl⟩

theorem inContext (h : Within n e e') (c : Problem.Context) :
    Within (n + 1) e (e'.inContext c) := by
  obtain ⟨contexts, hlen, rfl⟩ := h
  exact ⟨c :: contexts, Nat.succ_le_succ hlen, rfl⟩

/-- Contexts leave the class of a problem alone. -/
theorem isProblem_eq (h : Within n e e') (kind : Problem.Kind) :
    e'.isProblem kind = e.isProblem kind := by
  obtain ⟨contexts, -, rfl⟩ := h
  induction contexts with
  | nil => rfl
  | cons c contexts ih =>
    rw [List.foldr_cons, ← ih]
    cases contexts.foldr Failure.inContext e <;> rfl

/-- What contexts leave alone is passed on as it is. -/
theorem eq_of_inContext (h : Within n e e') (hself : ∀ c, e.inContext c = e) : e' = e := by
  obtain ⟨contexts, -, rfl⟩ := h
  induction contexts with
  | nil => rfl
  | cons c contexts ih => rw [List.foldr_cons, ih, hself]

/-- What a database cannot take is reported without contexts. -/
theorem eq_of_isUnfit (h : Within n e e') (he : e.IsUnfit) : e' = e := by
  refine h.eq_of_inContext fun c => ?_
  cases e with
  | problem => exact he.elim
  | _ => rfl

/-- A problem that is passed on in one context at most stays of its class, and the context comes
before its message. -/
theorem of_problem {p : Problem} (h : Within 1 (.problem p) e') :
    ∃ p' : Problem, e' = .problem p' ∧ p'.kind = p.kind ∧ (p' = p ∨
      ∃ c : Problem.Context, p' = p.inContext c ∧ p'.message = c.text ++ ": " ++ p.message) := by
  obtain ⟨contexts, hlen, rfl⟩ := h
  match contexts with
  | [] => exact ⟨p, rfl, rfl, .inl rfl⟩
  | [c] => exact ⟨p.inContext c, rfl, rfl, .inr ⟨c, rfl, Problem.message_inContext c p⟩⟩
  | _ :: _ :: _ => simp at hlen

end Failure.Within

namespace Program

variable {α β γ : Type} {K : Store.Call → Prop} {F G R : Failure → Prop} {n m : Nat}

/-! ### Failing without another request -/

/-- The program makes no request any more and fails, as `R` says. -/
def Fails (R : Failure → Prop) : Program α → Prop
  | .done (.error e) => R e
  | .note _ next => next.Fails R
  | _ => False

theorem Fails.bind {p : Program α} (h : p.Fails R) (f : α → Program β) : (p >>= f).Fails R := by
  change (p.bind f).Fails R
  induction p with
  | done result =>
    cases result with
    | ok a => exact h.elim
    | error e => exact h
  | note entry next ih => exact ih h
  | call | size | further => exact h.elim

theorem Fails.handle {p : Program α} {f : Failure → Program α} (h : p.Fails R)
    (hf : ∀ e, R e → (f e).Fails R') : (p.handle f).Fails R' := by
  induction p with
  | done result =>
    cases result with
    | ok a => exact h.elim
    | error e => exact hf e h
  | note entry next ih => exact ih h
  | call | size | further => exact h.elim

/-- Failing has nothing to do with the store. -/
theorem Fails.run {σ : Type} [Store.Backend σ] {p : Program α} (h : p.Fails R) (now : Instant) :
    ∃ e log, R e ∧ ∀ s : σ, p.run now s = ⟨.error e, s, log⟩ := by
  induction p with
  | done result =>
    cases result with
    | ok a => exact h.elim
    | error e => exact ⟨e, [], h, fun _ => rfl⟩
  | note entry next ih =>
    obtain ⟨e, log, he, hrun⟩ := ih h
    refine ⟨e, entry :: log, he, fun s => ?_⟩
    rw [Program.run, hrun s]
  | call | size | further => exact h.elim

/-- A program that makes no request meets no fault. -/
theorem Fails.inject {p : Program α} (h : p.Fails R) (fault : Option Fault) :
    (p.inject fault).Fails R := by
  induction p with
  | done result =>
    cases result with
    | ok a => exact h.elim
    | error e => cases fault <;> exact h
  | note entry next ih => cases fault <;> exact ih h
  | call | size | further => exact h.elim

/-! ### Passing failures on -/

/-- A failure of a kind `G` that a request meets ends the program, with at most `n` contexts around
it. -/
def Relays (G : Failure → Prop) (n : Nat) : Program α → Prop
  | .done _ => True
  | .call _ next =>
    (∀ e, G e → (next (.error e)).Fails (e.Within n)) ∧ ∀ reply, (next reply).Relays G n
  | .note _ next => next.Relays G n
  | .size next => ∀ k, (next k).Relays G n
  | .further _ next => ∀ method, (next method).Relays G n

theorem relays_ask (request : Store.Call) : (ask request).Relays G n :=
  ⟨fun e _ => .refl n e, fun _ => trivial⟩

theorem relays_stored : stored.Relays G n := fun _ => trivial

theorem Relays.bind {p : Program α} {f : α → Program β} (hp : p.Relays G n)
    (hf : ∀ a, (f a).Relays G n) : (p >>= f).Relays G n := by
  change (p.bind f).Relays G n
  induction p with
  | done result =>
    cases result with
    | ok a => exact hf a
    | error e => exact trivial
  | call request next ih =>
    exact ⟨fun e he => (hp.1 e he).bind f, fun reply => ih reply (hp.2 reply)⟩
  | note entry next ih => exact ih hp
  | size next ih => exact fun k => ih k (hp k)
  | further request next ih => exact fun method => ih method (hp method)

theorem Relays.handle {p : Program α} {f : Failure → Program α} (hp : p.Relays G n)
    (hf : ∀ e, (f e).Relays G m)
    (hfails : ∀ e e', G e → e.Within n e' → (f e').Fails (e.Within m)) :
    (p.handle f).Relays G m := by
  induction p with
  | done result =>
    cases result with
    | ok a => exact trivial
    | error e => exact hf e
  | call request next ih =>
    exact ⟨fun e he => (hp.1 e he).handle fun e' => hfails e e' he,
      fun reply => ih reply (hp.2 reply)⟩
  | note entry next ih => exact ih hp
  | size next ih => exact fun k => ih k (hp k)
  | further request next ih => exact fun method => ih method (hp method)

/-- A fault adds no way of getting over a failure. -/
theorem Relays.inject {p : Program α} (hp : p.Relays G n) (fault : Option Fault) :
    (p.inject fault).Relays G n := by
  induction p generalizing fault with
  | done result => cases fault <;> exact trivial
  | note entry next ih => cases fault <;> exact ih hp _
  | size next ih => cases fault <;> exact fun k => ih k (hp k) _
  | further request next ih => cases fault <;> exact fun method => ih method (hp method) _
  | call request next ih =>
    cases fault with
    | none => exact ⟨fun e he => (hp.1 e he).inject none, fun reply => ih reply (hp.2 reply) none⟩
    | some fault =>
      rw [Program.inject]
      refine fun method => ?_
      dsimp only
      split
      · exact ih _ (hp.2 _) none
      · rename_i left _
        exact ⟨fun e he => (hp.1 e he).inject (some left),
          fun reply => ih reply (hp.2 reply) (some left)⟩

/-! ### Both at once -/

/-- The program makes requests of a kind `K` only, it fails with failures of a kind `F` only if the
store does so, and it passes failures of a kind `G` on, with at most `n` contexts around them. -/
structure Regular (K : Store.Call → Prop) (F G : Failure → Prop) (n : Nat) (p : Program α) :
    Prop where
  asks : p.Asks K F
  relays : p.Relays G n

theorem regular_pure (a : α) : (pure a : Program α).Regular K F G n := ⟨asks_pure a, trivial⟩

theorem regular_fail {e : Failure} (he : F e) : (fail e : Program α).Regular K F G n :=
  ⟨asks_fail.2 he, trivial⟩

theorem regular_ask {request : Store.Call} (h : K request) : (ask request).Regular K F G n :=
  ⟨asks_ask h, relays_ask request⟩

theorem regular_log (c : Log.Component) (level : Log.Level) (message : Text) :
    (log c level message).Regular K F G n := ⟨asks_log c level message, trivial⟩

theorem regular_stored : stored.Regular K F G n := ⟨asks_stored, relays_stored⟩

theorem regular_ofExcept (r : Except Problem α) (hF : ∀ p, F (.problem p)) :
    (ofExcept r).Regular K F G n := by
  refine ⟨asks_ofExcept r hF, ?_⟩
  cases r <;> trivial

theorem regular_note {entry : Log.Record} {p : Program α} (hp : p.Regular K F G n) :
    (note entry p).Regular K F G n := ⟨asks_note.2 hp.asks, hp.relays⟩

namespace Regular

theorem bind {p : Program α} {f : α → Program β} (hp : p.Regular K F G n)
    (hf : ∀ a, (f a).Regular K F G n) : (p >>= f).Regular K F G n :=
  ⟨hp.asks.bind fun a => (hf a).asks, hp.relays.bind fun a => (hf a).relays⟩

theorem map {p : Program α} {f : α → β} (hp : p.Regular K F G n) : (f <$> p).Regular K F G n := by
  rw [map_eq_pure_bind]
  exact hp.bind fun a => regular_pure (f a)

theorem discard {p : Program α} (hp : p.Regular K F G n) :
    (discard p : Program Unit).Regular K F G n := map hp

theorem handle {p : Program α} {f : Failure → Program α} (hp : p.Regular K F G n)
    (hf : ∀ e, (f e).Regular K F G m)
    (hfails : ∀ e e', G e → e.Within n e' → (f e').Fails (e.Within m)) :
    (p.handle f).Regular K F G m :=
  ⟨hp.asks.handle fun e _ => (hf e).asks, hp.relays.handle (fun e => (hf e).relays) hfails⟩

/-- A program whose problems are put into a context puts one more around what it passes on. -/
theorem inContext {p : Program α} (hp : p.Regular K (fun _ => True) G n) (c : Problem.Context) :
    (inContext c p).Regular K (fun _ => True) G (n + 1) :=
  hp.handle (fun _ => regular_fail trivial) fun _ _ _ h => h.inContext c

theorem forM {f : γ → Program Unit} (hf : ∀ x, (f x).Regular K F G n) (xs : List γ) :
    (xs.forM f).Regular K F G n := by
  induction xs with
  | nil => exact regular_pure ()
  | cons x xs ih =>
    show (f x >>= fun _ => xs.forM f).Regular K F G n
    exact (hf x).bind fun _ => ih

theorem mapM {f : γ → Program α} (hf : ∀ x, (f x).Regular K F G n) (xs : List γ) :
    (xs.mapM f).Regular K F G n := by
  induction xs with
  | nil => exact regular_pure []
  | cons x xs ih =>
    rw [List.mapM_cons]
    exact (hf x).bind fun _ => ih.bind fun _ => regular_pure _

end Regular

end Program

end Agenda
