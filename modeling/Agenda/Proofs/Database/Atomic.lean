import Agenda.Proofs.Program.Outcome
import Agenda.Proofs.Program.Relays
import Agenda.Store.Session

/-!
# Work in sessions is atomic

A session is kept or undone as a whole, but the work in it may find out how it stands: a write that
the database cannot take undoes the session on the spot, and what follows meets a spent session.
Atomic work (`Session.Work.Atomic`) goes in every open session as it goes in a session of its own,
and when it succeeds the session is open still, with its writes.  Programs that pass on what the
database cannot take are atomic (`Program.Relays.atomic`), for then the failure of the write is the
failure of the program.

Several pieces of atomic work in one session therefore come to what they come to in sessions of
their own, if all succeed (`Database.transact_eq`), and so do two programs that were put together
(`Program.inSession_bind`).
-/

namespace Agenda

open Program

variable {α β : Type} {now : Instant}

/-! ### Atomic work -/

/-- In a session whose tables stand as those of some database, the work has the result that it has
in a session of its own on that database; if it succeeds, the session is open and has the same
tables. -/
def Session.Work.Atomic (work : Session.Work α) : Prop :=
  ∀ opened current : Database,
    (work ⟨opened, current, false⟩).result = (current.inSession work).result ∧
      ∀ a, (current.inSession work).result = .ok a →
        (work ⟨opened, current, false⟩).store = ⟨opened, (current.inSession work).store, false⟩

/-- What a session of its own does to a database that the work in it fails on. -/
theorem Database.inSession_of_error {db : Database} {work : Session.Work α} {e : Failure}
    (h : (db.inSession work).result = .error e) : (db.inSession work).store = db := by
  unfold inSession at h ⊢
  dsimp only at h ⊢
  split
  · rename_i hok
    rw [hok] at h
    cases h
  · rfl

/-- What a session of its own comes to is what the work comes to. -/
theorem Database.inSession_result (db : Database) (work : Session.Work α) :
    (db.inSession work).result = (work (Session.start db)).result := by
  unfold inSession
  dsimp only
  split
  · rename_i hok
    exact hok.symm
  · rename_i herror
    exact herror.symm

theorem Database.inSession_store {db : Database} {work : Session.Work α} {a : α}
    (h : (work (Session.start db)).result = .ok a) :
    (db.inSession work).store = (work (Session.start db)).store.current := by
  unfold inSession
  dsimp only
  rw [h]

/-- A session that atomic work has succeeded in can be committed, and nothing is lost. -/
theorem Session.Work.Atomic.commit {work : Session.Work α} (h : work.Atomic) {db : Database} {a : α}
    (hok : (db.inSession work).result = .ok a) :
    (work (Session.start db)).store.commit = .ok (db.inSession work).store := by
  have hstore := (h db db).2 a hok
  change (work ⟨db, db, false⟩).store.commit = _
  rw [hstore]
  rfl

/-! ### Programs -/

/-- A write that fails in the database itself is one that the database cannot take. -/
theorem Session.isUnfit_of_breaksOff {request : Store.Call} {reply : Except Failure request.Reply}
    (h : breaksOff request reply = true) : ∃ e : Failure, e.IsUnfit ∧ reply = .error e := by
  unfold breaksOff at h
  split at h
  · exact ⟨.overflow, trivial, rfl⟩
  · exact ⟨.unwritable _, trivial, rfl⟩
  · cases h

/-- A request to an open session is answered from its tables alone: either the database cannot take
what is written, and the session is undone, or the tables become others and the session stays
open. -/
theorem Session.answer_cases (now : Instant) (request : Store.Call) (current : Database) :
    (∃ e : Failure, e.IsUnfit ∧ ∀ opened, Session.answer now request ⟨opened, current, false⟩ =
        (.error e, ⟨opened, opened, true⟩)) ∨
      ∃ reply db, ∀ opened, Session.answer now request ⟨opened, current, false⟩ =
        (reply, ⟨opened, db, false⟩) := by
  simp only [Session.answer, Bool.false_eq_true, if_false]
  by_cases hbroken : breaksOff request (Database.answer now request current).1 = true
  · obtain ⟨e, he, hreply⟩ := isUnfit_of_breaksOff hbroken
    refine .inl ⟨e, he, fun _ => ?_⟩
    rw [if_pos hbroken, hreply]
  · exact .inr ⟨_, _, fun _ => if_neg hbroken⟩

/-- **The course does not depend on what would be undone.**  From the same tables a program that
passes on what the database cannot take has the same result, and if it succeeds, the same
tables. -/
theorem Program.Relays.run_open {G : Failure → Prop} {n : Nat} {p : Program α} (hp : p.Relays G n)
    (hG : ∀ e : Failure, e.IsUnfit → G e) (now : Instant) (current opened opened' : Database) :
    (p.run now (⟨opened, current, false⟩ : Session)).result =
        (p.run now (⟨opened', current, false⟩ : Session)).result ∧
      ∀ a, (p.run now (⟨opened, current, false⟩ : Session)).result = .ok a →
        ∃ db, (p.run now (⟨opened, current, false⟩ : Session)).store = ⟨opened, db, false⟩ ∧
          (p.run now (⟨opened', current, false⟩ : Session)).store = ⟨opened', db, false⟩ := by
  induction p generalizing current with
  | done result => exact ⟨rfl, fun _ _ => ⟨current, rfl, rfl⟩⟩
  | call request next ih =>
    rcases Session.answer_cases now request current with ⟨e, he, hundone⟩ | ⟨reply, db, hreply⟩
    · -- the session is undone, and the program fails whatever the session is now
      obtain ⟨e', log, -, hfails⟩ := (hp.1 e (hG e he)).run (σ := Session) now
      have hrun (o : Database) :
          (Program.call request next).run now (⟨o, current, false⟩ : Session) =
            ⟨.error e', ⟨o, o, true⟩, log⟩ := by
        simp only [run, Store.Backend.answer, hundone, hfails, remarksFor, List.nil_append]
      rw [hrun opened, hrun opened']
      refine ⟨rfl, fun a ha => ?_⟩
      cases ha
    · have hrest := ih reply (hp.2 reply) db
      simp only [run, Store.Backend.answer, hreply]
      exact hrest
  | note entry next ih => exact ih hp current
  | size next ih => exact ih _ (hp _) current
  | further request next ih => exact ih _ (hp _) current

/-- **Programs are atomic work** if they pass on what the database cannot take. -/
theorem Program.Relays.atomic {G : Failure → Prop} {n : Nat} {p : Program α} (hp : p.Relays G n)
    (hG : ∀ e : Failure, e.IsUnfit → G e) (now : Instant) :
    (Session.Work.ofProgram now p).Atomic := by
  intro opened current
  obtain ⟨hresult, hstore⟩ := hp.run_open hG now current opened current
  rw [Database.inSession_result]
  refine ⟨hresult, fun a ha => ?_⟩
  obtain ⟨db, hdb, hdb'⟩ := hstore a (hresult.trans ha)
  rw [Database.inSession_store ha]
  change (p.run now (⟨opened, current, false⟩ : Session)).store =
    ⟨opened, (p.run now (⟨current, current, false⟩ : Session)).store.current, false⟩
  rw [hdb, hdb']

/-! ### One session or several -/

/-- Several pieces of work, each in a session of its own, up to and with the first that fails: the
results, and the database at the end. -/
def Database.separately : List (Session.Work α) → Database → List (Except Failure α) × Database
  | [], db => ([], db)
  | work :: rest, db =>
    let ran := db.inSession work
    match ran.result with
    | .error e => ([.error e], ran.store)
    | .ok a =>
      let others := separately rest ran.store
      (.ok a :: others.1, others.2)

/-- Atomic work in one open session has the results that it has in sessions of its own, and if
nothing fails the session is open and has the same tables. -/
theorem Session.workAll_eq {works : List (Session.Work α)} (h : ∀ work ∈ works, work.Atomic)
    (opened current : Database) :
    (workAll works ⟨opened, current, false⟩).results = (Database.separately works current).1 ∧
      ((∀ r ∈ (Database.separately works current).1, ∃ a, r = .ok a) →
        (workAll works ⟨opened, current, false⟩).session =
          ⟨opened, (Database.separately works current).2, false⟩) := by
  induction works generalizing current with
  | nil => exact ⟨rfl, fun _ => rfl⟩
  | cons work rest ih =>
    obtain ⟨hresult, hstore⟩ := h work List.mem_cons_self opened current
    unfold workAll Database.separately
    dsimp only
    rw [hresult]
    cases hran : (current.inSession work).result with
    | error e =>
      refine ⟨rfl, fun hall => ?_⟩
      obtain ⟨a, ha⟩ := hall (.error e) List.mem_cons_self
      cases ha
    | ok a =>
      have hrest := ih (fun w hw => h w (List.mem_cons_of_mem work hw))
        (current.inSession work).store
      dsimp only
      rw [hstore a hran]
      refine ⟨congrArg (List.cons (Except.ok a)) hrest.1, fun hall => hrest.2 fun r hr => ?_⟩
      exact hall r (List.mem_cons_of_mem _ hr)

/-- **Transactions.**  A transaction of atomic work has the results that the work has in sessions of
its own.  It is kept if nothing fails and it is not to be aborted, and then the database is what the
sessions of their own make of it; else the database is as it was. -/
theorem Database.transact_eq {works : List (Session.Work α)} (h : ∀ work ∈ works, work.Atomic)
    (db : Database) (abort : Bool) :
    (db.transact works abort).results = (separately works db).1 ∧
      ((db.transact works abort).committed = true ↔
        abort = false ∧ ∀ r ∈ (separately works db).1, ∃ a, r = .ok a) ∧
      ((db.transact works abort).committed = true →
        (db.transact works abort).database = (separately works db).2) ∧
      ((db.transact works abort).committed = false → (db.transact works abort).database = db) := by
  obtain ⟨hresults, hsession⟩ := Session.workAll_eq h db db
  have hkept : (abort || (separately works db).1.any fun r => !r.isOk) = false ↔
      abort = false ∧ ∀ r ∈ (separately works db).1, ∃ a, r = .ok a := by
    rw [Bool.or_eq_false_iff, List.any_eq_false]
    refine and_congr Iff.rfl (forall_congr' fun r => forall_congr' fun _ => ?_)
    cases r with
    | ok a => simp [Except.isOk, Except.toBool]
    | error e => simp [Except.isOk, Except.toBool]
  unfold transact
  change (Session.workAll works (Session.start db)).results = _ at hresults
  change _ → (Session.workAll works (Session.start db)).session = _ at hsession
  dsimp only
  rw [hresults]
  split
  · rename_i hundone
    have hnot := fun hk => Bool.eq_false_iff.1 (hkept.2 hk) hundone
    exact ⟨rfl, iff_of_false Bool.false_ne_true hnot, (fun h => nomatch h), fun _ => rfl⟩
  · rename_i hdone
    have hall := hkept.1 (Bool.eq_false_iff.2 hdone)
    refine ⟨rfl, iff_of_true rfl hall, fun _ => ?_, fun h => nomatch h⟩
    rw [hsession hall.2]

/-- **One program after another in a session.**  If the first one fails, so do both; otherwise the
second one does as it would in a session of its own, after the first one has had one. -/
theorem Program.inSession_bind (now : Instant) {p : Program α} {f : α → Program β}
    (hp : (Session.Work.ofProgram now p).Atomic)
    (hf : ∀ a, (Session.Work.ofProgram now (f a)).Atomic) (db : Database) :
    let first := db.inSession (Session.Work.ofProgram now p)
    let both := db.inSession (Session.Work.ofProgram now (p >>= f))
    match first.result with
    | .error e => both.result = .error e
    | .ok a =>
      let second := first.store.inSession (Session.Work.ofProgram now (f a))
      both.result = second.result ∧ ∀ b, second.result = .ok b → both.store = second.store := by
  have hboth : (p >>= f).outcome now (Session.start db) =
      follow (p.outcome now (Session.start db)) fun a s => (f a).outcome now s := outcome_bind p f
  obtain ⟨hresult, hstore⟩ := hp db db
  dsimp only
  cases hfirst : (db.inSession (Session.Work.ofProgram now p)).result with
  | error e =>
    dsimp only
    rw [hfirst] at hresult
    change (p.run now (Session.start db)).result = _ at hresult
    rw [outcome, outcome, hresult, follow_error] at hboth
    rw [Database.inSession_result]
    exact congrArg Prod.fst hboth
  | ok a =>
    dsimp only
    rw [hfirst] at hresult
    have hstore := hstore a hfirst
    change (p.run now (Session.start db)).result = _ at hresult
    change (p.run now (Session.start db)).store = _ at hstore
    rw [outcome, outcome, hresult, hstore, follow_ok] at hboth
    obtain ⟨hresult', hstore'⟩ := hf a db (db.inSession (Session.Work.ofProgram now p)).store
    have hsame := (congrArg Prod.fst hboth).trans hresult'
    rw [Database.inSession_result]
    refine ⟨hsame, fun b hb => ?_⟩
    have hok : (Session.Work.ofProgram now (p >>= f) (Session.start db)).result = .ok b :=
      hsame.trans hb
    rw [Database.inSession_store hok]
    exact congrArg Session.current ((congrArg Prod.snd hboth).trans (hstore' b hb))

end Agenda
