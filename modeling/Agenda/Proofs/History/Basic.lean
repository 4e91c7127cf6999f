import Agenda.Proofs.Database.Atomic
import Agenda.Proofs.Database.Sessions
import Agenda.Proofs.Operation.Changing

/-!
# Histories

A history is a list of operations, each on its occasion, carried out one after another with nobody
else around.  Records can be kept in three ways: in memory, in a database where each operation has
a session of its own, and in a database where all operations share one session.  `trace` lists the
answers and the states on the way, `after` is the state at the end.

What one operation does in memory (`effect_inMemory`) it does in a database as well, from the rows
of any well-formed catalog, unless it fails there (`perOperation_wellFormed`).  When it fails is
told for tidy catalogs (`sharedSession_tidy`), and in full where all ways of keeping records are
treated together.  In memory the records are sound after every history (`sound_after`).
-/

namespace Agenda

/-- An operation from beginning to end, with nobody else around. -/
def Operation.program (on : Occasion) (op : Operation) : Program Answer :=
  Plan.alone (op.plan on)

/-- What becomes of the kept records through one operation, and what it answers. -/
abbrev Step (σ : Type) := Occasion → Operation → σ → Except Failure Answer × σ

/-- An operation on records in memory. -/
def inMemory : Step Catalog := fun on op c =>
  let ran := (op.program on).run on.now c
  (ran.result, ran.store)

/-- An operation in a session of its own. -/
def perOperation : Step Database := fun on op db =>
  let ran := db.inSession (Session.Work.ofProgram on.now (op.program on))
  (ran.result, ran.store)

/-- An operation in a session that others have used already. -/
def sharedSession : Step Session := fun on op s =>
  let ran := Session.Work.ofProgram on.now (op.program on) s
  (ran.result, ran.store)

/-- Operations in their order, each on its occasion. -/
abbrev History := List (Occasion × Operation)

namespace History

variable {σ : Type}

/-- The answer of each operation and the state after it. -/
def trace (step : Step σ) : σ → History → List (Except Failure Answer × σ)
  | _, [] => []
  | s, (on, op) :: rest => step on op s :: trace step (step on op s).2 rest

/-- The answers of all operations. -/
def answers (step : Step σ) (s : σ) (h : History) : List (Except Failure Answer) :=
  (trace step s h).map (·.1)

/-- The state after all operations. -/
def after (step : Step σ) (s : σ) (h : History) : σ :=
  h.foldl (fun s (on, op) => (step on op s).2) s

theorem after_append (step : Step σ) (s : σ) (h h' : History) :
    after step s (h ++ h') = after step (after step s h) h' :=
  List.foldl_append

/-- A history in two parts: the second one starts where the first one ends. -/
theorem trace_append (step : Step σ) (s : σ) (h h' : History) :
    trace step s (h ++ h') = trace step s h ++ trace step (after step s h) h' := by
  induction h generalizing s with
  | nil => rfl
  | cons o rest ih => exact congrArg (List.cons _) (ih _)

theorem length_trace (step : Step σ) (s : σ) (h : History) :
    (trace step s h).length = h.length := by
  induction h generalizing s with
  | nil => rfl
  | cons o rest ih => exact congrArg Nat.succ (ih _)

/-- The state at the end is the last one on the way. -/
theorem after_eq_getLastD (step : Step σ) (s : σ) (h : History) :
    after step s h = ((trace step s h).map (·.2)).getLastD s := by
  induction h generalizing s with
  | nil => rfl
  | cons o rest ih =>
    rw [trace, List.map_cons, List.getLastD_cons]
    exact ih _

/-- What every operation keeps holds where each operation of a history starts. -/
theorem exists_of_mem_zip_trace {step : Step σ} {I : σ → Prop} {s : σ} (hs : I s)
    (hstep : ∀ on op s, I s → I (step on op s).2) (h : History) :
    ∀ x ∈ h.zip (trace step s h), ∃ s', I s' ∧ x.2 = step x.1.1 x.1.2 s' := by
  induction h generalizing s with
  | nil => exact fun _ hx => nomatch hx
  | cons o rest ih =>
    intro x hx
    rw [trace, List.zip_cons_cons, List.mem_cons] at hx
    rcases hx with rfl | hx
    · exact ⟨s, hs, rfl⟩
    · exact ih (hstep o.1 o.2 s hs) x hx

/-- What every operation keeps, every history keeps. -/
theorem after_induction {step : Step σ} {I : σ → Prop} {s : σ} (hs : I s)
    (hstep : ∀ on op s, I s → I (step on op s).2) (h : History) : I (after step s h) := by
  induction h generalizing s with
  | nil => exact hs
  | cons o rest ih => exact ih (hstep o.1 o.2 s hs)

end History

/-! ### One operation -/

section One

variable {c : Catalog} {on : Occasion} {op : Operation}

/-- **One operation in memory**, where only the tasks matter. -/
theorem effect_of_whole (h : c.Whole) (on : Occasion) (op : Operation) :
    Effect on c op (inMemory on op c).1 (inMemory on op c).2 :=
  (op.meets_effect on 0 h).run

/-- **One operation in memory.** -/
theorem effect_inMemory (h : c.WellFormed) (on : Occasion) (op : Operation) :
    Effect on c op (inMemory on op c).1 (inMemory on op c).2 :=
  effect_of_whole h.whole on op

theorem leaves_inMemory (h : c.Sound) (on : Occasion) (op : Operation) :
    Leaves c (inMemory on op c).1 (inMemory on op c).2 :=
  (effect_inMemory h.wellFormed on op).leaves h

/-- No operation has an answer to what a database objects to. -/
theorem not_taskNotFound {e : Failure} (h : e.IsObjection) : e.isProblem .taskNotFound = false := by
  rcases h with ⟨subject, errors, rfl⟩ | hunfit
  · rfl
  · cases e with
    | problem => exact hunfit.elim
    | _ => rfl

/-- What a tidy catalog and a session that holds its rows have in common after an operation that
keeps it tidy and looks for no name that cannot be written, or what comes of a number that does not
fit. -/
theorem sharedSession_tidy {B : Nat} (opened : Database) (h : c.Whole) (htidy : c.Tidy B)
    (hfits : op.Fits on B c) (hsought : ∀ name ∈ op.sought?, name.isWritable = true) :
    sharedSession on op (Session.holding opened c) =
        ((inMemory on op c).1, Session.holding opened (inMemory on op c).2) ∨
      (9223372036854775808 < B ∧
        sharedSession on op (Session.holding opened c) =
          (.error .overflow, Session.undone opened)) := by
  have hsteady := op.steady_alone (k := 0) hsought (fun _ => not_taskNotFound) on
  have hmeets := (op.meets_effect on B h).through fun _ hkeeps => hkeeps.tidy hfits htidy
  rcases Program.run_holding opened hsteady (.inr trivial) htidy hmeets with hsame | ⟨hbig, hfails⟩
  · exact .inl (Prod.ext hsame.1 hsame.2)
  · exact .inr ⟨hbig, Prod.ext hfails.1 hfails.2⟩

/-- A session of its own keeps what an operation in memory does: if that fails, it has written
nothing, so undoing the session leaves the rows of the catalog. -/
theorem perOperation_of_holding (h : c.WellFormed)
    (hsame : sharedSession on op (Session.holding (.ofCatalog c) c) =
      ((inMemory on op c).1, Session.holding (.ofCatalog c) (inMemory on op c).2)) :
    perOperation on op (.ofCatalog c) =
      ((inMemory on op c).1, .ofCatalog (inMemory on op c).2) := by
  have heffect := effect_inMemory h on op
  have hopen : Session.start (.ofCatalog c) = Session.holding (.ofCatalog c) c := rfl
  have hresult := congrArg Prod.fst hsame
  have hstore := congrArg Prod.snd hsame
  dsimp only [sharedSession] at hresult hstore
  unfold perOperation Database.inSession
  dsimp only
  rw [hopen, hresult, hstore]
  cases hanswer : (inMemory on op c).1 with
  | ok a => rfl
  | error e =>
    rw [hanswer] at heffect
    rw [heffect.unchanged]

/-- A well-formed catalog and an open session that holds its rows, whatever is in them, have in
common what an operation does, or the operation fails in the session. -/
theorem sharedSession_wellFormed (opened : Database) (h : c.WellFormed) (on : Occasion)
    (op : Operation) :
    sharedSession on op (Session.holding opened c) =
        ((inMemory on op c).1, Session.holding opened (inMemory on op c).2) ∨
      ∃ e, (sharedSession on op (Session.holding opened c)).1 = .error e := by
  have hmeets := (op.meets_effect on 0 h.whole).through fun _ hkeeps => hkeeps.forest h.forest
  have hsteady := op.steady_alone (P := fun _ => True) (k := 0) (fun _ _ => trivial)
    (fun _ => not_taskNotFound) on
  exact (Program.run_holding_or_error opened hsteady (fun _ he => he) h.forest
    hmeets).imp_left fun hsame => Prod.ext hsame.1 hsame.2

/-- **One operation in a session of its own.**  A well-formed catalog and a database that holds its
rows, whatever is in them, have in common what an operation does; or the operation fails on the
database, and its undoing leaves the rows. -/
theorem perOperation_wellFormed (h : c.WellFormed) (on : Occasion) (op : Operation) :
    perOperation on op (.ofCatalog c) =
        ((inMemory on op c).1, .ofCatalog (inMemory on op c).2) ∨
      ((∃ e, (perOperation on op (.ofCatalog c)).1 = .error e) ∧
        (perOperation on op (.ofCatalog c)).2 = .ofCatalog c) := by
  rcases sharedSession_wellFormed (.ofCatalog c) h on op with hsame | ⟨e, he⟩
  · exact .inl (perOperation_of_holding h hsame)
  · have herror : (perOperation on op (.ofCatalog c)).1 = .error e :=
      (Database.inSession_result _ _).trans he
    exact .inr ⟨⟨e, herror⟩, Database.inSession_of_error herror⟩

end One

/-! ### All histories -/

namespace History

/-- **Sound for ever.**  In memory, the records are sound after every history. -/
theorem sound_after (h : History) : (after inMemory .empty h).Sound :=
  after_induction (I := Catalog.Sound) .empty
    (fun on op _ hs => (leaves_inMemory hs on op).sound) h

end History

end Agenda
