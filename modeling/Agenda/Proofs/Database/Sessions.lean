import Agenda.Proofs.Database.Answers
import Agenda.Proofs.Database.Atomic
import Agenda.Proofs.Operation.Plain

/-!
# Operations on a database

A program that leads a catalog through tidy states leads a session that holds the rows of the
catalog along the same way, to the same result and to the rows of the same catalog
(`Program.run_holding`), provided that it looks for projects only by names that can be written; if a
number does not fit, the session is undone and spent, and stays so.

For an operation from a sound catalog this decides what a database holds afterwards, whether the
operation has a session of its own or shares one with others: a failed operation has written
nothing, so undoing its session and keeping it are the same.
-/

namespace Agenda

open Program

/-- A session with the rows of a catalog. -/
def Session.holding (opened : Database) (c : Catalog) : Session := ⟨opened, .ofCatalog c, false⟩

/-- A session that a write undid. -/
def Session.undone (opened : Database) : Session := ⟨opened, opened, true⟩

variable {α : Type} {B : Nat} {c : Catalog} {opened : Database} {now : Instant} {on : Occasion}

/-- A session answers as its tables do, unless the answer breaks it off. -/
theorem Session.answer_open {db db' : Database} {request : Store.Call}
    {r : Except Failure request.Reply} (opened : Database)
    (h : Database.answer now request db = (r, db')) (hr : breaksOff request r = false) :
    Store.Backend.answer now request (⟨opened, db, false⟩ : Session) =
      (r, ⟨opened, db', false⟩) := by
  change Session.answer now request _ = _
  simp only [Session.answer, Bool.false_eq_true, if_false, h, hr]

/-- Broken off or not, an open session gives the answer of its tables. -/
theorem Session.answer_fst (opened current : Database) (request : Store.Call) :
    (Store.Backend.answer now request (⟨opened, current, false⟩ : Session)).1 =
      (Database.answer now request current).1 := by
  change (Session.answer now request _).1 = _
  simp only [Session.answer, Bool.false_eq_true, if_false]
  split <;> rfl

/-- A session that holds a catalog answers as the tables of the catalog do. -/
theorem Session.answer_eq {c' : Catalog} {request : Store.Call} {r : Except Failure request.Reply}
    (opened : Database)
    (h : Database.answer now request (.ofCatalog c) = (r, .ofCatalog c'))
    (hr : breaksOff request r = false) :
    Store.Backend.answer now request (Session.holding opened c) =
      (r, Session.holding opened c') :=
  Session.answer_open opened h hr

/-- What the tables cannot take breaks a session off; any other answer does not. -/
theorem Session.breaksOff_eq_false {request : Store.Call} {r : Except Failure request.Reply}
    (h : ∀ e, r = .error e → ¬ e.IsUnfit) : breaksOff request r = false := by
  rw [Bool.eq_false_iff]
  intro hbroken
  obtain ⟨e, he, hr⟩ := isUnfit_of_breaksOff hbroken
  exact h e hr he

/-- A request that only reads breaks a session off only if a number does not fit. -/
theorem Session.breaksOff_of_isRead {request : Store.Call} {r : Except Failure request.Reply}
    (hread : request.IsRead) (hr : r ≠ .error .overflow) : breaksOff request r = false := by
  unfold breaksOff
  split
  · exact absurd rfl hr
  · cases request with
    | addTask | rename => exact hread.elim
    | _ => rfl
  · rfl

namespace Program

/-- A spent session stays as it is. -/
theorem run_undone (p : Program α) :
    (p.run now (Session.undone opened)).store = Session.undone opened := by
  induction p with
  | done result => rfl
  | call request next ih => exact ih _
  | note entry next ih => exact ih
  | size next ih => exact ih _
  | further request next ih => exact ih _

/-- A request within a session that holds the rows of a catalog. -/
theorem answer_holding (now : Instant) (opened : Database) (h : c.Forest) (request : Store.Call) :
    Store.Backend.answer now request (Session.holding opened c) =
        ((Store.Backend.answer now request c).1,
          Session.holding opened (Store.Backend.answer now request c).2) ∨
      (Database.Overflows (Store.Backend.answer now request c).2 ∧
        Store.Backend.answer now request (Session.holding opened c) =
          (.error .overflow, Session.undone opened)) ∨
      (¬ (c.Valid ∧ (Store.Backend.answer now request c).2.Valid ∧
          ∀ name ∈ request.sought?, name.isWritable = true) ∧ ∃ e, e.IsObjection ∧
        (Store.Backend.answer now request (Session.holding opened c)).1 = .error e) := by
  rcases Database.answer_ofCatalog now h request with
    hsame | ⟨hbig, hover⟩ | ⟨hbad, e, he, hrefused⟩
  · refine .inl (Session.answer_eq opened hsame (Session.breaksOff_eq_false fun e he hunfit => ?_))
    -- a catalog fails with problems only
    obtain ⟨p, rfl⟩ := Catalog.answer_error he
    exact hunfit
  · refine .inr (.inl ⟨hbig, ?_⟩)
    change Session.answer now request _ = _
    simp only [Session.answer, Session.holding, Bool.false_eq_true, if_false, hover]
    rfl
  · exact .inr (.inr ⟨hbad, e, he, (Session.answer_fst opened _ request).trans hrefused⟩)

/-- **The same course.**  Along tidy catalogs a session follows the catalog if no project is looked
for by a name that cannot be written, unless a number does not fit; then the program fails with
that. -/
theorem run_holding (opened : Database) {p : Program α} {G : Failure → Prop} {n : Nat}
    {Q : Except Failure α → Catalog → Prop}
    (hp : p.Steady (fun name => name.isWritable = true) G n) (hG : G .overflow) (h : c.Tidy B)
    (hm : p.Meets now (Catalog.Tidy B) Q c) :
    ((p.run now (Session.holding opened c)).result = (p.run now c).result ∧
        (p.run now (Session.holding opened c)).store =
          Session.holding opened (p.run now c).store) ∨
      (9223372036854775808 < B ∧
        (p.run now (Session.holding opened c)).result = .error .overflow ∧
        (p.run now (Session.holding opened c)).store = Session.undone opened) := by
  obtain ⟨hplain, hrelays⟩ := hp
  induction p generalizing c with
  | done result => exact .inl ⟨rfl, rfl⟩
  | call request next ih =>
    obtain ⟨hsought, hnext⟩ := asks_call.1 hplain
    rcases answer_holding now opened h.toForest request with
      hsame | ⟨hbig, hover⟩ | ⟨hbad, -⟩
    · have hrest := ih _ hm.1 hm.2 (hnext _ fun _ _ => trivial) (hrelays.2 _)
      simp only [run, hsame]
      exact hrest
    · -- the failure of the request is the failure of the program
      obtain ⟨e, log, he, hrun⟩ := (hrelays.1 .overflow hG).run (σ := Session) now
      right
      simp only [run, hover, hrun]
      exact ⟨hbig.lt hm.1, congrArg _ (he.eq_of_isUnfit trivial), trivial⟩
    · exact absurd ⟨h.toValid, hm.1.toValid, hsought⟩ hbad
  | note entry next ih => exact ih h hm (asks_note.1 hplain) hrelays
  | size next ih =>
    have hsize : Store.Backend.size (Session.holding opened c) = Store.Backend.size c :=
      List.length_map _
    have hrest := ih _ h hm (asks_size.1 hplain (Store.Backend.size c)) (hrelays _)
    simp only [run, hsize]
    exact hrest
  | further request next ih => exact absurd hplain not_asks_further

/-- **The same course, or a failure.**  Along any forests a session follows the catalog, or the
program fails, because it passes on what the database objects to. -/
theorem run_holding_or_error (opened : Database) {p : Program α} {P : Text → Prop}
    {G : Failure → Prop} {n : Nat} {Q : Except Failure α → Catalog → Prop} (hp : p.Steady P G n)
    (hG : ∀ e : Failure, e.IsObjection → G e) (h : c.Forest)
    (hm : p.Meets now Catalog.Forest Q c) :
    ((p.run now (Session.holding opened c)).result = (p.run now c).result ∧
        (p.run now (Session.holding opened c)).store =
          Session.holding opened (p.run now c).store) ∨
      ∃ e, (p.run now (Session.holding opened c)).result = .error e := by
  obtain ⟨hplain, hrelays⟩ := hp
  induction p generalizing c with
  | done result => exact .inl ⟨rfl, rfl⟩
  | call request next ih =>
    have hnext := (asks_call.1 hplain).2
    -- a failure of the request is the failure of the program, wherever the session has got to
    have hfails (e : Failure) (he : G e) (s : Session) :
        ∃ e', ((next (.error e)).run now s).result = .error e' := by
      obtain ⟨e', log, -, hrun⟩ := (hrelays.1 e he).run (σ := Session) now
      exact ⟨e', congrArg Run.result (hrun s)⟩
    rcases answer_holding now opened h request with
      hsame | ⟨-, hanswer⟩ | ⟨-, e, he, hanswer⟩
    · have hrest := ih _ hm.1 hm.2 (hnext _ fun _ _ => trivial) (hrelays.2 _)
      simp only [run, hsame]
      exact hrest
    · right
      simp only [run, hanswer]
      exact hfails .overflow (hG _ (.inr trivial)) _
    · right
      simp only [run, hanswer]
      exact hfails e (hG e he) _
  | note entry next ih => exact ih h hm (asks_note.1 hplain) hrelays
  | size next ih =>
    have hsize : Store.Backend.size (Session.holding opened c) = Store.Backend.size c :=
      List.length_map _
    have hrest := ih _ h hm (asks_size.1 hplain (Store.Backend.size c)) (hrelays _)
    simp only [run, hsize]
    exact hrest
  | further request next ih => exact absurd hplain not_asks_further

/-! ### Rows that fit -/

/-- In a session all rows fit, in its tables and in those that it would go back to. -/
theorem answer_fits (now : Instant) (request : Store.Call) {s : Session} (hopened : s.opened.Fits)
    (hcurrent : s.current.Fits) :
    (Store.Backend.answer now request s).2.opened.Fits ∧
      (Store.Backend.answer now request s).2.current.Fits := by
  change (Session.answer now request s).2.opened.Fits ∧
    (Session.answer now request s).2.current.Fits
  unfold Session.answer
  split
  · exact ⟨hopened, hcurrent⟩
  · dsimp only
    split
    · exact ⟨hopened, hopened⟩
    · exact ⟨hopened, Database.answer_fits now request hcurrent⟩

/-- Whatever is done in a session, all rows in its tables fit. -/
theorem run_fits (p : Program α) {s : Session} (hopened : s.opened.Fits)
    (hcurrent : s.current.Fits) : (p.run now s).store.current.Fits := by
  induction p generalizing s with
  | done result => exact hcurrent
  | call request next ih =>
    obtain ⟨hopened', hcurrent'⟩ := answer_fits now request hopened hcurrent
    exact ih _ hopened' hcurrent'
  | note entry next ih => exact ih hopened hcurrent
  | size next ih => exact ih _ hopened hcurrent
  | further request next ih => exact ih _ hopened hcurrent

end Program

end Agenda
