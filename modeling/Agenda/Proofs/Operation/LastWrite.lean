import Agenda.Proofs.Operation.Plain
import Agenda.Proofs.Program.Faults
import Agenda.Proofs.Program.Strikes

/-!
# One write, and it comes last

Records in memory have nothing that would undo a write.  An operation that fails must not have
written anything, then, and there is one way to be sure of that: look at everything first, write
once, and do nothing after the write that could fail.  `p.WritesLast` says that `p` is made so,
whatever the store replies.

**Nothing is left half done** (`Program.WritesLast.unharmed`).  All requests of such a program meet
the records as they were at the beginning (`WritesLast.requests_eq`), because a request that reads
leaves them alone and so does a write that is refused.  Whether a program fails by itself or a fault
strikes one of its requests, the records are what they were.

Operations that go through several tasks one by one are not made so (`Operation.IsCascade`).  All
others are (`Operation.writesLast_alone`).
-/

namespace Agenda

variable {α β : Type}

/-! ### Programs with one write -/

namespace Program

variable {F G : Failure → Prop} {n : Nat}

/-- The program makes no request any more and succeeds. -/
def Succeeds : Program α → Prop
  | .done (.ok _) => True
  | .note _ next => next.Succeeds
  | _ => False

/-- The program only reads before it writes, and behind a write there is no other request: only
success if the write was answered, only failure if it was refused. -/
def WritesLast : Program α → Prop
  | .done _ => True
  | .call request next =>
    (request.IsRead ∧ ∀ reply, (next reply).WritesLast) ∨
      (∀ a, (next (.ok a)).Succeeds) ∧ ∀ e, (next (.error e)).Fails fun _ => True
  | .note _ next => next.WritesLast
  | .size next => ∀ k, (next k).WritesLast
  | .further _ next => ∀ method, (next method).WritesLast

@[simp] theorem succeeds_pure (a : α) : (pure a : Program α).Succeeds := trivial

@[simp] theorem succeeds_log (c : Log.Component) (level : Log.Level) (message : Text) :
    (log c level message).Succeeds := trivial

theorem Succeeds.bind {p : Program α} {f : α → Program β} (hp : p.Succeeds)
    (hf : ∀ a, (f a).Succeeds) : (p >>= f).Succeeds := by
  change (p.bind f).Succeeds
  induction p with
  | done result =>
    cases result with
    | ok a => exact hf a
    | error e => exact hp.elim
  | note entry next ih => exact ih hp
  | call | size | further => exact hp.elim

theorem Succeeds.handle {p : Program α} (hp : p.Succeeds) (f : Failure → Program α) :
    (p.handle f).Succeeds := by
  induction p with
  | done result =>
    cases result with
    | ok a => exact hp
    | error e => exact hp.elim
  | note entry next ih => exact ih hp
  | call | size | further => exact hp.elim

theorem Succeeds.writesLast {p : Program α} (hp : p.Succeeds) : p.WritesLast := by
  induction p with
  | done result => exact trivial
  | note entry next ih => exact ih hp
  | call | size | further => exact hp.elim

/-- A program that fails without another request writes nothing. -/
theorem Fails.writesLast {R : Failure → Prop} {p : Program α} (hp : p.Fails R) :
    p.WritesLast := by
  induction p with
  | done result => exact trivial
  | note entry next ih => exact ih hp
  | call | size | further => exact hp.elim

@[simp] theorem writesLast_pure (a : α) : (pure a : Program α).WritesLast := trivial

@[simp] theorem writesLast_fail (e : Failure) : (fail e : Program α).WritesLast := trivial

theorem writesLast_note {entry : Log.Record} {p : Program α} :
    (note entry p).WritesLast ↔ p.WritesLast := Iff.rfl

theorem writesLast_ask (request : Store.Call) : (ask request).WritesLast :=
  .inr ⟨fun _ => trivial, fun _ => trivial⟩

/-- A program that only reads, and then another one. -/
theorem Asks.bind_writesLast {p : Program α} {f : α → Program β}
    (hp : p.Asks Store.Call.IsRead fun _ => True) (hf : ∀ a, (f a).WritesLast) :
    (p >>= f).WritesLast := by
  change (p.bind f).WritesLast
  induction p with
  | done result =>
    cases result with
    | ok a => exact hf a
    | error e => exact trivial
  | call request next ih =>
    obtain ⟨hread, hnext⟩ := asks_call.1 hp
    exact .inl ⟨hread, fun reply => ih reply (hnext reply fun _ _ => trivial)⟩
  | note entry next ih => exact ih (asks_note.1 hp)
  | size next ih => exact fun k => ih k (asks_size.1 hp k)
  | further request next ih => exact (not_asks_further hp).elim

theorem Asks.writesLast {p : Program α} (hp : p.Asks Store.Call.IsRead fun _ => True) :
    p.WritesLast := by
  have hsame : (p >>= fun a => pure a).WritesLast := hp.bind_writesLast fun _ => trivial
  change (p.bind _).WritesLast at hsame
  rwa [Program.bind_pure] at hsame

/-- What succeeds without another request can follow a write. -/
theorem WritesLast.bind {p : Program α} {f : α → Program β} (hp : p.WritesLast)
    (hf : ∀ a, (f a).Succeeds) : (p >>= f).WritesLast := by
  change (p.bind f).WritesLast
  induction p with
  | done result =>
    cases result with
    | ok a => exact (hf a).writesLast
    | error e => exact trivial
  | call request next ih =>
    rcases hp with ⟨hread, hnext⟩ | ⟨hok, herror⟩
    · exact .inl ⟨hread, fun reply => ih reply (hnext reply)⟩
    · exact .inr ⟨fun a => (hok a).bind hf, fun e => (herror e).bind f⟩
  | note entry next ih => exact ih hp
  | size next ih => exact fun k => ih k (hp k)
  | further request next ih => exact fun method => ih method (hp method)

theorem WritesLast.map {p : Program α} (hp : p.WritesLast) (f : α → β) : (f <$> p).WritesLast := by
  rw [map_eq_pure_bind]
  exact hp.bind fun _ => trivial

/-- A failure can be put differently. -/
theorem WritesLast.handle {p : Program α} {f : Failure → Program α} (hp : p.WritesLast)
    (hf : ∀ e, (f e).Fails fun _ => True) : (p.handle f).WritesLast := by
  induction p with
  | done result =>
    cases result with
    | ok a => exact trivial
    | error e => exact (hf e).writesLast
  | call request next ih =>
    rcases hp with ⟨hread, hnext⟩ | ⟨hok, herror⟩
    · exact .inl ⟨hread, fun reply => ih reply (hnext reply)⟩
    · exact .inr ⟨fun a => (hok a).handle f, fun e => (herror e).handle fun e _ => hf e⟩
  | note entry next ih => exact ih hp
  | size next ih => exact fun k => ih k (hp k)
  | further request next ih => exact fun method => ih method (hp method)

/-- A program that only reads, with its answer put differently. -/
theorem Regular.writesLast_map {p : Program α}
    (hp : p.Regular Store.Call.IsRead (fun _ => True) (fun _ => True) 0) (f : α → β) :
    (f <$> p).WritesLast :=
  hp.asks.writesLast.map f

theorem WritesLast.inContext {p : Program α} (hp : p.WritesLast) (c : Problem.Context) :
    (inContext c p).WritesLast :=
  hp.handle fun _ => trivial

end Program

/-! ### What a catalog does with such a program -/

namespace Catalog

variable {c : Catalog} {now : Instant}

/-- A request that only reads leaves the records alone. -/
theorem answer_read {request : Store.Call} (h : request.IsRead) :
    (Store.Backend.answer now request c).2 = c := by
  cases request with
  | addTask | rename | setOrders | setStatus | remove | addProject => exact h.elim
  | _ => rfl

theorem change_refused {id : Uuid} {f : Task → Task} {e : Failure}
    (h : (c.change id f).1 = .error e) : (c.change id f).2 = c := by
  unfold change at h ⊢
  split at h
  · cases h
  · rfl

/-- A write that is refused leaves the records alone: it looks for all that it needs before it
changes anything. -/
theorem answer_refused {request : Store.Call} {e : Failure}
    (h : (Store.Backend.answer now request c).1 = .error e) :
    (Store.Backend.answer now request c).2 = c := by
  cases request with
  | addTask t =>
    rw [answer_addTask, addTask] at h ⊢
    by_cases htaken : (c.find? t.id).isSome = true
    · rw [if_pos htaken]
    · rw [if_neg htaken] at h
      cases h
  | rename id name => exact change_refused h
  | setOrders orders =>
    rw [answer_setOrders, setOrders] at h ⊢
    split at h
    · rfl
    · cases h
  | setStatus id status =>
    rw [answer_setStatus] at h ⊢
    cases hreply : (c.change id fun t => { t with status := status, updated := now }).1 with
    | ok t =>
      rw [hreply] at h
      cases h
    | error e' => exact change_refused hreply
  | remove id =>
    rw [answer_remove, remove] at h ⊢
    split at h
    · cases h
    · rfl
  | addProject p =>
    rw [answer_addProject, addProject] at h ⊢
    by_cases htaken : (c.findProject? p.id).isSome = true
    · rw [if_pos htaken]
    · by_cases hname : (c.projectNamed? p.name).isSome = true
      · rw [if_neg htaken, if_pos hname]
      · rw [if_neg htaken, if_neg hname] at h
        cases h
  | _ => exact answer_read trivial

end Catalog

namespace Program

variable {c : Catalog} {now : Instant} {p : Program α}

theorem Succeeds.requests_eq_nil (hp : p.Succeeds) : p.requests now c = [] := by
  induction p with
  | done result => rfl
  | note entry next ih => exact ih hp
  | call | size | further => exact hp.elim

theorem Succeeds.outcome_ok (hp : p.Succeeds) : ∃ a, (p.outcome now c).1 = .ok a := by
  induction p with
  | done result =>
    cases result with
    | ok a => exact ⟨a, rfl⟩
    | error e => exact hp.elim
  | note entry next ih => exact ih hp
  | call | size | further => exact hp.elim

/-- What a request of such a program comes to: it leaves the records alone, or nothing but success
follows. -/
theorem WritesLast.call_cases {request : Store.Call}
    {next : Except Failure request.Reply → Program α}
    (hp : (call request next).WritesLast) (now : Instant) (c : Catalog) :
    ((Store.Backend.answer now request c).2 = c ∧
        (next (Store.Backend.answer now request c).1).WritesLast) ∨
      (next (Store.Backend.answer now request c).1).Succeeds := by
  rcases hp with ⟨hread, hnext⟩ | ⟨hok, herror⟩
  · exact .inl ⟨Catalog.answer_read hread, hnext _⟩
  · cases hreply : (Store.Backend.answer now request c).1 with
    | ok a => exact .inr (hok a)
    | error e => exact .inl ⟨Catalog.answer_refused hreply, (herror e).writesLast⟩

/-- **Requests meet the records as they were.**  The one write is the last request. -/
theorem WritesLast.requests_eq (hp : p.WritesLast) : ∀ x ∈ p.requests now c, x.2 = c := by
  induction p with
  | done result => exact fun x hx => nomatch hx
  | note entry next ih => exact ih hp
  | size next ih => exact ih _ (hp _)
  | further request next ih => exact ih _ (hp _)
  | call request next ih =>
    rw [requests_call]
    refine List.forall_mem_cons.2 ⟨rfl, ?_⟩
    rcases hp.call_cases now c with ⟨hsame, hnext⟩ | hlast
    · rw [hsame]
      exact ih _ hnext
    · rw [hlast.requests_eq_nil]
      exact fun x hx => nomatch hx

/-- If the program fails, the write has not been made. -/
theorem WritesLast.outcome_error (hp : p.WritesLast) {e : Failure}
    (he : (p.outcome now c).1 = .error e) : (p.outcome now c).2 = c := by
  induction p with
  | done result => rfl
  | note entry next ih => exact ih hp he
  | size next ih => exact ih _ (hp _) he
  | further request next ih => exact ih _ (hp _) he
  | call request next ih =>
    rw [outcome_call] at he ⊢
    rcases hp.call_cases now c with ⟨hsame, hnext⟩ | hlast
    · rw [hsame] at he ⊢
      exact ih _ hnext he
    · obtain ⟨a, ha⟩ := hlast.outcome_ok
      cases ha.symm.trans he

/-- **Nothing is left half done.**  A program that writes last and passes failures on may fail by
itself or by a fault: the records are what they were. -/
theorem WritesLast.unharmed (hp : p.WritesLast) {fault : Option Fault} {n : Nat}
    (hrelays : ∀ f ∈ fault, p.Relays (· = f.failure) n) {e : Failure}
    (he : ((p.inject fault).outcome now c).1 = .error e) :
    ((p.inject fault).outcome now c).2 = c := by
  have hplain {left : Option Fault} (hsame : (p.inject fault).outcome now c =
      ((p.outcome now c).1.map (·, left), (p.outcome now c).2)) :
      ((p.inject fault).outcome now c).2 = c := by
    rw [hsame] at he ⊢
    cases hresult : (p.outcome now c).1 with
    | ok a =>
      rw [hresult] at he
      cases he
    | error e' => exact hp.outcome_error hresult
  cases fault with
  | none => exact hplain (outcome_inject_none p)
  | some fault =>
    by_cases hstruck : 1 ≤ fault.number ∧ fault.number ≤ (p.calls now c).count fault.method
    · rw [calls_eq] at hstruck
      obtain ⟨before, request, c', after, hmade, hstrikes⟩ :=
        Fault.exists_strikes hstruck.1 hstruck.2
      obtain ⟨e', houtcome, -⟩ := (hrelays fault rfl).outcome_struck rfl hmade hstrikes
      rw [houtcome]
      exact hp.requests_eq (request, c') (hmade ▸ List.mem_append_right _ List.mem_cons_self)
    · obtain ⟨left, hsame⟩ := outcome_unstruck hstruck
      exact hplain hsame

-- from here on the lemmas above are all that is known of them
attribute [irreducible] Succeeds WritesLast

end Program

/-! ### Operations with one write -/

open Program

namespace Siblings

theorem asks_fetch (t : Task) : (fetch t).Asks Store.Call.IsRead fun _ => True := by
  unfold fetch
  dsimp only
  split
  · exact (asks_ask trivial).bind fun _ => asks_pure _
  · exact (asks_ask trivial).bind fun _ => asks_pure _

theorem writesLast_append (t : Task) : (append t).WritesLast := by
  have hstored (group : List Task) : (do
      let placed := { t with order := group.length }
      ask (.addTask placed)
      return placed : Program Task).WritesLast :=
    (writesLast_ask _).bind fun _ => succeeds_pure _
  have hplaced := ((asks_fetch t).bind_writesLast hstored).inContext (.creatingTask t.name)
  exact hplaced.bind fun placed => (succeeds_log _ _ _).bind fun _ => succeeds_pure placed

theorem writesLast_closeGap (t : Task) : (closeGap t).WritesLast := by
  refine (asks_fetch t).bind_writesLast fun group => ?_
  dsimp only
  split
  · exact writesLast_pure ()
  · exact (writesLast_ask _).bind fun _ => succeeds_log _ _ _

theorem writesLast_moveBy (id : Uuid) (choose : Nat → Except Failure Int) :
    (moveBy id choose).WritesLast := by
  refine Asks.bind_writesLast (asks_ask trivial) fun t => ?_
  refine Asks.bind_writesLast ((asks_fetch t).handle fun _ _ => asks_fail.2 trivial) fun group => ?_
  split
  · exact writesLast_pure t
  split
  · exact writesLast_fail _
  split
  · exact (asks_log _ _ _).bind_writesLast fun _ => writesLast_pure t
  split
  · exact writesLast_fail _
  · exact ((writesLast_ask _).inContext _).bind fun _ =>
      (succeeds_log _ _ _).bind fun _ => succeeds_pure _

end Siblings

theorem Projects.writesLast_create (on : Occasion) (name : Text) :
    (create on name).WritesLast := by
  refine Asks.bind_writesLast (asks_log _ _ _) fun _ => ?_
  refine Asks.bind_writesLast (asks_ask trivial) fun found => ?_
  split
  · exact (asks_log _ _ _).bind_writesLast fun _ => writesLast_fail _
  split
  · exact writesLast_fail _
  · exact (writesLast_ask _).bind fun _ => (succeeds_log _ _ _).bind fun _ => succeeds_pure _

namespace Tasks

/-- Reporting a problem is failing. -/
theorem writesLast_reporting {p : Program α} (hp : p.WritesLast) (kind : Problem.Kind)
    (lead : Text) : (reporting kind lead p).WritesLast := by
  refine hp.handle fun e => ?_
  split <;> exact trivial

theorem asks_reporting {p : Program α} (hp : p.Asks Store.Call.IsRead fun _ => True)
    (kind : Problem.Kind) (lead : Text) :
    (reporting kind lead p).Asks Store.Call.IsRead fun _ => True := by
  refine hp.handle fun e _ => ?_
  split
  · exact (asks_log _ _ _).bind fun _ => asks_fail.2 trivial
  · exact asks_fail.2 trivial

theorem asks_checkHome (project : Uuid) (parent : Option Uuid) :
    (checkHome project parent).Asks Store.Call.IsRead fun _ => True := by
  refine (asks_ask trivial).bind fun _ => ?_
  split
  · exact asks_pure _
  · refine Asks.bind (asks_ask trivial) fun above => ?_
    split
    · exact asks_pure _
    · exact asks_fail.2 trivial

theorem writesLast_createNamed (on : Occasion) (name : Text) (project : Uuid)
    (parent : Option Uuid) : (createNamed on name project parent).rest.WritesLast := by
  refine writesLast_note.2 (Asks.bind_writesLast ?_ fun _ => ?_)
  · exact (asks_reporting (asks_checkHome project parent) _ _).handle
      fun _ _ => asks_fail.2 trivial
  · exact (Siblings.writesLast_append _).bind fun _ =>
      (succeeds_log _ _ _).bind fun _ => succeeds_pure _

theorem writesLast_create (on : Occasion) (name : Text) (project : Uuid) (parent : Option Uuid) :
    (Plan.alone (create on name project parent)).WritesLast := by
  unfold create
  rw [Plan.alone_bind]
  refine Asks.bind_writesLast (asks_log _ _ _) fun _ => ?_
  rw [Plan.alone_bind]
  refine Asks.bind_writesLast (asks_ofExcept _ fun _ => trivial) fun name => ?_
  rw [Plan.alone_bind]
  exact Asks.bind_writesLast (regular_validate (G := fun _ => True) (k := 0) _ _).asks fun _ =>
    writesLast_createNamed on name project parent

theorem writesLast_rename (id : Uuid) (name : Text) : (rename id name).WritesLast := by
  refine Asks.bind_writesLast (asks_ofExcept _ fun _ => trivial) fun name => ?_
  exact ((writesLast_reporting (writesLast_ask _) _ _).inContext _).bind fun _ =>
    (succeeds_log _ _ _).bind fun _ => succeeds_pure _

theorem writesLast_reorder (id : Uuid) (place : Int) :
    (Plan.alone (reorder id place)).WritesLast := by
  unfold reorder reorderBy
  rw [Plan.alone_bind]
  refine Asks.bind_writesLast (asks_ask trivial) fun t => writesLast_note.2 ?_
  exact (writesLast_reporting (Siblings.writesLast_moveBy id _) _ _).bind fun _ =>
    (succeeds_log _ _ _).bind fun _ => succeeds_pure _

end Tasks

namespace Operation

/-- The operation may write several times: it goes up or down a tree. -/
def IsCascade : Operation → Prop
  | .setStatus .. | .complete _ | .reopen _ | .delete _ => True
  | _ => False

/-- **All other operations write last**, if they write at all. -/
theorem writesLast_alone {op : Operation} (hop : ¬ op.IsCascade) (on : Occasion) :
    (Plan.alone (op.plan on)).WritesLast := by
  have hread : ∀ request : Store.Call, request.IsRead → request.sought? = none →
      request.IsRead := fun _ h _ => h
  cases op with
  | setStatus | complete | reopen | delete =>
    exact absurd trivial hop
  | createProject name =>
    rw [plan, Plan.alone_ofProgram]
    exact (Projects.writesLast_create on name).map _
  | createTask name home parent =>
    rw [plan, Plan.alone_map]
    exact (Tasks.writesLast_create on name home parent).map _
  | rename id name =>
    rw [plan, Plan.alone_ofProgram]
    exact (Tasks.writesLast_rename id name).map _
  | reorder id place =>
    rw [plan, Plan.alone_map]
    exact (Tasks.writesLast_reorder id place).map _
  | project | projectNamed | projects | tasks =>
    rw [plan, Plan.alone_ofProgram]
    exact (writesLast_ask _).map _
  | task id withSubtasks =>
    rw [plan, Plan.alone_ofProgram]
    exact (Tasks.regular_read hread id withSubtasks).writesLast_map _
  | projectTasks project =>
    rw [plan, Plan.alone_ofProgram]
    exact (Tasks.regular_projectTasks hread project).writesLast_map _
  | projectTree project =>
    rw [plan, Plan.alone_ofProgram]
    exact (Tasks.regular_projectTree hread project).writesLast_map _
  | subtasks id deep =>
    rw [plan, Plan.alone_ofProgram]
    exact (Tasks.regular_subtasks hread id deep).writesLast_map _
  | search project word =>
    rw [plan, Plan.alone_ofProgram]
    exact (Tasks.regular_search hread (fun _ => trivial) project word).writesLast_map _

end Operation

end Agenda
