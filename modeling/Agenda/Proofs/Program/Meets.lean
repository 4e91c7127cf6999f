import Agenda.Program.Basic

/-!
# What a run passes through and what it ends in

`p.Meets now S Q s` says that running `p` from the store `s` passes only through stores with `S`,
and that `Q` holds of its result and of the store at its end.  It is computed by recursion on the
program, so every way of putting programs together has one law (`meets_bind`, `meets_handle`, …),
and an operation is treated by walking through its calls once.  `Meets.run` is the way back to
`Program.run`.

`p.Asks K F` says that `p` makes requests of the kind `K` only and that it fails with failures of
the kind `F` only as long as the store does so.
-/

namespace Agenda.Program

variable {σ α β γ : Type}

/-! ### The laws of a monad -/

theorem bind_pure (p : Program α) : (p.bind fun a => pure a) = p := by
  induction p with
  | done result => cases result <;> rfl
  | call request next ih => exact congrArg (call request) (funext ih)
  | note entry next ih => exact congrArg (note entry) ih
  | size next ih => exact congrArg size (funext ih)
  | further request next ih => exact congrArg (further request) (funext ih)

theorem bind_assoc (p : Program α) (f : α → Program β) (g : β → Program γ) :
    (p.bind f).bind g = p.bind fun a => (f a).bind g := by
  induction p with
  | done result => cases result <;> rfl
  | call request next ih => exact congrArg (call request) (funext ih)
  | note entry next ih => exact congrArg (note entry) ih
  | size next ih => exact congrArg size (funext ih)
  | further request next ih => exact congrArg (further request) (funext ih)

instance : LawfulMonad Program := LawfulMonad.mk' Program
  bind_pure
  (fun _ _ => rfl)
  bind_assoc

/-! ### Runs -/

section Meets

variable [Store.Backend σ] {now : Instant} {S : σ → Prop} {s : σ}

/-- Running a program passes only through stores with `S`, and its result and the store at its end
are as `Q` says. -/
def Meets (now : Instant) (S : σ → Prop) (Q : Except Failure α → σ → Prop) : Program α → σ → Prop
  | .done result, s => Q result s
  | .call request next, s =>
    let (reply, s') := Store.Backend.answer now request s
    S s' ∧ (next reply).Meets now S Q s'
  | .note _ next, s => next.Meets now S Q s
  | .size next, s => (next (Store.Backend.size s)).Meets now S Q s
  | .further request next, s => (next (Store.Backend.further request s)).Meets now S Q s

/-- What has to hold between two programs: the second one goes on with a result, and a failure is
the end. -/
def Between (now : Instant) (S : σ → Prop) (f : α → Program β) (Q : Except Failure β → σ → Prop) :
    Except Failure α → σ → Prop
  | .ok a, s => (f a).Meets now S Q s
  | .error e, s => Q (.error e) s

@[simp] theorem between_ok {f : α → Program β} {Q : Except Failure β → σ → Prop} (a : α) :
    Between now S f Q (.ok a) s ↔ (f a).Meets now S Q s := Iff.rfl

@[simp] theorem between_error {f : α → Program β} {Q : Except Failure β → σ → Prop} (e : Failure) :
    Between now S f Q (.error e) s ↔ Q (.error e) s := Iff.rfl

/-- **The result of a run.**  What a program meets holds of its run. -/
theorem Meets.run {p : Program α} {Q : Except Failure α → σ → Prop} (h : p.Meets now S Q s) :
    Q (p.run now s).result (p.run now s).store := by
  induction p generalizing s with
  | done result => exact h
  | call request next ih => exact ih _ h.2
  | note entry next ih => exact ih h
  | size next ih => exact ih _ h
  | further request next ih => exact ih _ h

/-- Weaker demands are met as well. -/
theorem Meets.imp {p : Program α} {S' : σ → Prop} {Q Q' : Except Failure α → σ → Prop}
    (h : p.Meets now S Q s) (hS : ∀ s', S s' → S' s') (hQ : ∀ r s', Q r s' → Q' r s') :
    p.Meets now S' Q' s := by
  induction p generalizing s with
  | done result => exact hQ _ _ h
  | call request next ih => exact ⟨hS _ h.1, ih _ h.2⟩
  | note entry next ih => exact ih h
  | size next ih => exact ih _ h
  | further request next ih => exact ih _ h

theorem Meets.mono {p : Program α} {Q Q' : Except Failure α → σ → Prop} (h : p.Meets now S Q s)
    (hQ : ∀ r s', Q r s' → Q' r s') : p.Meets now S Q' s :=
  h.imp (fun _ hs => hs) hQ

theorem Meets.through {p : Program α} {S' : σ → Prop} {Q : Except Failure α → σ → Prop}
    (h : p.Meets now S Q s) (hS : ∀ s', S s' → S' s') : p.Meets now S' Q s :=
  h.imp hS fun _ _ hr => hr

/-- What holds of the stores on the way holds of the last one, if it holds of the first. -/
theorem Meets.last {p : Program α} {Q : Except Failure α → σ → Prop} (h : p.Meets now S Q s)
    (hs : S s) : S (p.run now s).store := by
  induction p generalizing s with
  | done result => exact hs
  | call request next ih => exact ih _ h.2 h.1
  | note entry next ih => exact ih h hs
  | size next ih => exact ih _ h hs
  | further request next ih => exact ih _ h hs

/-! ### One law for each way of putting programs together -/

@[simp] theorem meets_pure {Q : Except Failure α → σ → Prop} (a : α) :
    (pure a : Program α).Meets now S Q s ↔ Q (.ok a) s := Iff.rfl

@[simp] theorem meets_fail {Q : Except Failure α → σ → Prop} (e : Failure) :
    (fail e : Program α).Meets now S Q s ↔ Q (.error e) s := Iff.rfl

theorem meets_bind {p : Program α} {f : α → Program β} {Q : Except Failure β → σ → Prop} :
    (p >>= f).Meets now S Q s ↔ p.Meets now S (Between now S f Q) s := by
  change (p.bind f).Meets now S Q s ↔ _
  induction p generalizing s with
  | done result => cases result <;> rfl
  | call request next ih => exact and_congr Iff.rfl (ih _)
  | note entry next ih => exact ih
  | size next ih => exact ih _
  | further request next ih => exact ih _

theorem meets_map {p : Program α} {f : α → β} {Q : Except Failure β → σ → Prop} :
    (f <$> p).Meets now S Q s ↔ p.Meets now S (fun r s' => Q (r.map f) s') s := by
  rw [map_eq_pure_bind, meets_bind]
  constructor <;> intro h <;> refine h.mono ?_ <;> intro r s' hr <;> cases r <;> exact hr

theorem meets_discard {p : Program α} {Q : Except Failure Unit → σ → Prop} :
    (discard p : Program Unit).Meets now S Q s ↔
      p.Meets now S (fun r s' => Q (r.map fun _ => ()) s') s :=
  meets_map

theorem meets_handle {p : Program α} {f : Failure → Program α} {Q : Except Failure α → σ → Prop} :
    (p.handle f).Meets now S Q s ↔ p.Meets now S (fun r s' => match r with
      | .ok a => Q (.ok a) s'
      | .error e => (f e).Meets now S Q s') s := by
  induction p generalizing s with
  | done result => cases result <;> rfl
  | call request next ih => exact and_congr Iff.rfl (ih _)
  | note entry next ih => exact ih
  | size next ih => exact ih _
  | further request next ih => exact ih _

@[simp] theorem meets_ask {request : Store.Call} {Q : Except Failure request.Reply → σ → Prop} :
    (ask request).Meets now S Q s ↔ S (Store.Backend.answer now request s).2 ∧
      Q (Store.Backend.answer now request s).1 (Store.Backend.answer now request s).2 := Iff.rfl

/-- A request, by the answer that the store gives. -/
theorem meets_ask_of (request : Store.Call) {Q : Except Failure request.Reply → σ → Prop}
    {reply : Except Failure request.Reply} {s' : σ}
    (h : Store.Backend.answer now request s = (reply, s')) (hS : S s') (hQ : Q reply s') :
    (ask request).Meets now S Q s := by
  rw [meets_ask, h]
  exact ⟨hS, hQ⟩

@[simp] theorem meets_log {c : Log.Component} {level : Log.Level} {message : Text}
    {Q : Except Failure Unit → σ → Prop} : (log c level message).Meets now S Q s ↔ Q (.ok ()) s :=
  Iff.rfl

theorem meets_log_bind {c : Log.Component} {level : Log.Level} {message : Text}
    {f : Unit → Program α} {Q : Except Failure α → σ → Prop} :
    (log c level message >>= f).Meets now S Q s ↔ (f ()).Meets now S Q s := Iff.rfl

theorem meets_stored_bind {f : Nat → Program α} {Q : Except Failure α → σ → Prop} :
    (stored >>= f).Meets now S Q s ↔ (f (Store.Backend.size s)).Meets now S Q s := Iff.rfl

@[simp] theorem meets_stored {Q : Except Failure Nat → σ → Prop} :
    stored.Meets now S Q s ↔ Q (.ok (Store.Backend.size s)) s := Iff.rfl

@[simp] theorem meets_ofExcept {r : Except Problem α} {Q : Except Failure α → σ → Prop} :
    (ofExcept r).Meets now S Q s ↔ Q (r.mapError .problem) s := by
  cases r <;> rfl

@[simp] theorem meets_inContext {c : Problem.Context} {p : Program α}
    {Q : Except Failure α → σ → Prop} : (inContext c p).Meets now S Q s ↔
      p.Meets now S (fun r s' => Q (r.mapError (Failure.inContext c)) s') s := by
  rw [inContext, meets_handle]
  constructor <;> intro h <;> refine h.mono ?_ <;> intro r s' hr <;> cases r <;> exact hr

/-- **The rule for loops.**  An invariant that speaks of the elements still to come, and that each
round keeps, holds with nothing to come at the end. -/
theorem Meets.forM {f : γ → Program Unit} {I : List γ → σ → Prop} {xs : List γ} (hs : I xs s)
    (step : ∀ x rest s, I (x :: rest) s →
      (f x).Meets now S (fun r s' => r = .ok () ∧ I rest s') s) :
    (xs.forM f).Meets now S (fun r s' => r = .ok () ∧ I [] s') s := by
  induction xs generalizing s with
  | nil => exact ⟨rfl, hs⟩
  | cons x xs ih =>
    show (f x >>= fun _ => xs.forM f).Meets now S _ s
    rw [meets_bind]
    refine (step x xs s hs).mono ?_
    rintro r s' ⟨rfl, hs'⟩
    exact ih hs'

end Meets

/-! ### Requests of one kind -/

variable {K : Store.Call → Prop} {F : Failure → Prop}

/-- The program makes requests of a kind `K` only, whatever the store replies; and if the store
fails with failures of a kind `F` only, so does the program. -/
def Asks (K : Store.Call → Prop) (F : Failure → Prop) : Program α → Prop
  | .done result => ∀ e, result = .error e → F e
  | .call request next =>
    K request ∧ ∀ reply, (∀ e, reply = .error e → F e) → (next reply).Asks K F
  | .note _ next => next.Asks K F
  | .size next => ∀ n, (next n).Asks K F
  | .further _ _ => False

section Steps

variable {request : Store.Call} {entry : Log.Record}

theorem asks_call {next : Except Failure request.Reply → Program α} :
    (Program.call request next).Asks K F ↔
      K request ∧ ∀ reply, (∀ e, reply = .error e → F e) → (next reply).Asks K F := Iff.rfl

theorem asks_note {next : Program α} :
    (Program.note entry next).Asks K F ↔ next.Asks K F := Iff.rfl

theorem asks_size {next : Nat → Program α} :
    (Program.size next).Asks K F ↔ ∀ n, (next n).Asks K F := Iff.rfl

theorem not_asks_further {next : Option Store.Method → Program α} :
    ¬ (Program.further request next).Asks K F := id

end Steps

@[simp] theorem asks_pure (a : α) : (pure a : Program α).Asks K F := fun _ h => nomatch h

@[simp] theorem asks_fail {e : Failure} : (fail e : Program α).Asks K F ↔ F e :=
  ⟨fun h => h e rfl, fun h _ he => Except.error.inj he ▸ h⟩

@[simp] theorem asks_ask {request : Store.Call} (h : K request) : (ask request).Asks K F :=
  ⟨h, fun _ hreply => hreply⟩

@[simp] theorem asks_log (c : Log.Component) (level : Log.Level) (message : Text) :
    (log c level message).Asks K F := fun _ h => nomatch h

@[simp] theorem asks_stored : stored.Asks K F := fun _ _ h => nomatch h

theorem asks_ofExcept (r : Except Problem α) (hF : ∀ p, F (.problem p)) :
    (ofExcept r).Asks K F := by
  cases r with
  | ok a => exact asks_pure a
  | error p => exact asks_fail.2 (hF p)

theorem Asks.bind {p : Program α} {f : α → Program β} (hp : p.Asks K F)
    (hf : ∀ a, (f a).Asks K F) : (p >>= f).Asks K F := by
  change (p.bind f).Asks K F
  induction p with
  | done result =>
    cases result with
    | ok a => exact hf a
    | error e => exact fun _ he => Except.error.inj he ▸ hp e rfl
  | call request next ih => exact ⟨hp.1, fun reply hr => ih reply (hp.2 reply hr)⟩
  | note entry next ih => exact ih hp
  | size next ih => exact fun n => ih n (hp n)
  | further request next ih => exact hp.elim

theorem Asks.handle {p : Program α} {f : Failure → Program α} (hp : p.Asks K F)
    (hf : ∀ e, F e → (f e).Asks K F) : (p.handle f).Asks K F := by
  induction p with
  | done result =>
    cases result with
    | ok a => exact asks_pure a
    | error e => exact hf e (hp e rfl)
  | call request next ih => exact ⟨hp.1, fun reply hr => ih reply (hp.2 reply hr)⟩
  | note entry next ih => exact ih hp
  | size next ih => exact fun n => ih n (hp n)
  | further request next ih => exact hp.elim

-- from here on the lemmas above are all that is known of it
attribute [irreducible] Asks

end Agenda.Program
