import Agenda.Proofs.History.Media
import Agenda.Proofs.Operation.Closed

/-!
# Completed subtrees

Is everything below a completed task completed?  One operation from a closed catalog leaves it
closed unless it creates a task below a completed one (`closed_step_iff`), in memory and in a
database alike.  So everything below completed tasks is completed all the way through a history from
empty records if and only if no operation on the way creates a task below a completed one
(`completedBelow_iff`).

There are histories that do (`jaunt`), and what is open then stays below completed tasks: when
the last open child of a task is completed, the task is completed too, whatever is below its other
children.
-/

namespace Agenda

/-- Everything below a completed task is completed. -/
def Catalog.CompletedBelow (c : Catalog) : Prop :=
  ∀ p ∈ c.tasks, p.status = .completed → ∀ t ∈ c.tasks, Below c.tasks p.id t.id →
    t.status = .completed

/-- It is enough to look at children. -/
theorem Catalog.WellFormed.completedBelow_iff_closed {c : Catalog} (h : c.WellFormed) :
    c.CompletedBelow ↔ c.Closed := by
  constructor
  · intro hbelow
    exact ⟨h, fun p hp hdone t ht hparent => hbelow p hp hdone t ht (.child ht hparent)⟩
  · intro hclosed p hp hdone t ht hbelow
    exact hclosed.below hp hdone ht hbelow

/-- The tables hold the rows of a closed catalog. -/
def Database.Closed (db : Database) : Prop := ∃ c : Catalog, c.Closed ∧ db = .ofCatalog c

theorem Database.closed_ofCatalog {c : Catalog} : (ofCatalog c).Closed ↔ c.Closed := by
  constructor
  · rintro ⟨c', hclosed, h⟩
    rw [ofCatalog_injective h]
    exact hclosed
  · exact fun hclosed => ⟨c, hclosed, rfl⟩

namespace History

variable {c : Catalog}

/-! ### One operation -/

/-- An operation in memory. -/
theorem closed_inMemory (h : c.Closed) (on : Occasion) (op : Operation) :
    (inMemory on op c).2.Closed ↔
      ¬ (op.CreatesBelowCompleted c ∧ ∃ a, (inMemory on op c).1 = .ok a) :=
  (effect_inMemory h.wellFormed on op).closed_iff h

/-- An operation that fails has created nothing. -/
theorem closed_iff_of_error {c' : Catalog} {op : Operation} {r : Except Failure Answer}
    {e : Failure} (hr : r = .error e) (h : c'.Closed) :
    c'.Closed ↔ ¬ (op.CreatesBelowCompleted c ∧ ∃ a, r = .ok a) := by
  refine iff_of_true h ?_
  rintro ⟨-, a, ha⟩
  rw [hr] at ha
  cases ha

/-- **What opens a catalog.**  From a closed catalog, and from a database that holds its rows, an
operation leads to a closed one, except if it succeeds in creating a task below a completed one. -/
theorem closed_step_iff (h : c.Closed) (on : Occasion) (op : Operation) :
    ((inMemory on op c).2.Closed ↔
        ¬ (op.CreatesBelowCompleted c ∧ ∃ a, (inMemory on op c).1 = .ok a)) ∧
      ((perOperation on op (.ofCatalog c)).2.Closed ↔
        ¬ (op.CreatesBelowCompleted c ∧ ∃ a, (perOperation on op (.ofCatalog c)).1 = .ok a)) := by
  refine ⟨closed_inMemory h on op, ?_⟩
  rcases perOperation_wellFormed h.wellFormed on op with hsame | ⟨⟨e, he⟩, hkept⟩
  · rw [hsame, Database.closed_ofCatalog]
    exact closed_inMemory h on op
  · rw [hkept, Database.closed_ofCatalog]
    exact closed_iff_of_error he h

/-- A completed task with a completed child. -/
def swept : Catalog :=
  ⟨[⟨⟨1#128⟩, "Home", ⟨0⟩⟩],
    [⟨⟨2#128⟩, "Sweep", ⟨1#128⟩, none, .completed, 0, ⟨1⟩, ⟨3⟩⟩,
      ⟨⟨3#128⟩, "Corners", ⟨1#128⟩, some ⟨2#128⟩, .completed, 0, ⟨2⟩, ⟨3⟩⟩]⟩

theorem closed_swept : swept.Closed := by
  -- it comes about from nothing, and no operation on the way creates a task below a completed one
  have hhome := (closed_inMemory .empty ⟨⟨0⟩, ⟨1#128⟩⟩ (.createProject "Home")).2
    fun hcreates => absurd hcreates.1 (by decide)
  have hsweep := (closed_inMemory hhome ⟨⟨1⟩, ⟨2#128⟩⟩ (.createTask "Sweep" ⟨1#128⟩ none)).2
    fun hcreates => absurd hcreates.1 (by decide)
  have hcorners := (closed_inMemory hsweep ⟨⟨2⟩, ⟨3#128⟩⟩
    (.createTask "Corners" ⟨1#128⟩ (some ⟨2#128⟩))).2 fun hcreates => absurd hcreates.1 (by decide)
  exact (closed_inMemory hcorners ⟨⟨3⟩, ⟨4#128⟩⟩ (.complete ⟨2#128⟩)).2
    fun hcreates => absurd hcreates.1 (by decide)

theorem closed_step_iff_swept :
    swept.Closed ∧
      (inMemory ⟨⟨4⟩, ⟨4#128⟩⟩ (.reopen ⟨3#128⟩) swept).2.Closed ∧
      ¬ (inMemory ⟨⟨4⟩, ⟨4#128⟩⟩ (.createTask "Dust" ⟨1#128⟩ (some ⟨3#128⟩)) swept).2.Closed ∧
      ¬ (perOperation ⟨⟨4⟩, ⟨4#128⟩⟩ (.createTask "Dust" ⟨1#128⟩ (some ⟨3#128⟩))
        (.ofCatalog swept)).2.Closed := by
  have hreopen := closed_step_iff closed_swept ⟨⟨4⟩, ⟨4#128⟩⟩ (.reopen ⟨3#128⟩)
  have hcreate := closed_step_iff closed_swept ⟨⟨4⟩, ⟨4#128⟩⟩
    (.createTask "Dust" ⟨1#128⟩ (some ⟨3#128⟩))
  refine ⟨closed_swept, hreopen.1.2 fun hcreates => absurd hcreates.1 (by decide),
    fun h => hcreate.1.1 h ⟨by decide, _, rfl⟩, fun h => hcreate.2.1 h ⟨by decide, ?_⟩⟩
  have hok : (perOperation ⟨⟨4⟩, ⟨4#128⟩⟩ (.createTask "Dust" ⟨1#128⟩ (some ⟨3#128⟩))
      (.ofCatalog swept)).1.isOk = true := by
    decide +kernel
  cases hanswer : (perOperation ⟨⟨4⟩, ⟨4#128⟩⟩ (.createTask "Dust" ⟨1#128⟩ (some ⟨3#128⟩))
      (.ofCatalog swept)).1 with
  | ok a => exact ⟨a, rfl⟩
  | error e =>
    rw [hanswer] at hok
    cases hok

/-! ### All histories -/

variable {σ : Type}

/-- No operation of a history succeeds in creating a task below a task that is completed in the
records as they are read just before. -/
def SparesCompleted (step : Step σ) (read : σ → Except Failure Catalog) : σ → History → Prop
  | _, [] => True
  | s, (on, op) :: rest =>
    (∀ c, read s = .ok c → ¬ (op.CreatesBelowCompleted c ∧ ∃ a, (step on op s).1 = .ok a)) ∧
      SparesCompleted step read (step on op s).2 rest

/-- The way of a history, wherever records are kept: if each operation finds a sound catalog, and
leaves a closed one closed just when it spares the completed tasks, then all states on the way are
closed just when all operations spare them. -/
theorem completedBelow_iff_spares (step : Step σ) (read : σ → Except Failure Catalog)
    (Holds : σ → Catalog → Prop) (hread : ∀ s c, Holds s c → read s = .ok c ∧ c.Sound)
    (hstep : ∀ on op s c, Holds s c → ∃ c', Holds (step on op s).2 c' ∧ (c.Closed →
      (c'.Closed ↔ ¬ (op.CreatesBelowCompleted c ∧ ∃ a, (step on op s).1 = .ok a))))
    {s : σ} (hs : Holds s c) (hc : c.Closed) (h : History) :
    (∀ x ∈ trace step s h, ∃ c, read x.2 = .ok c ∧ c.CompletedBelow) ↔
      SparesCompleted step read s h := by
  induction h generalizing s c with
  | nil => exact iff_of_true (fun _ hx => nomatch hx) trivial
  | cons o rest ih =>
    obtain ⟨on, op⟩ := o
    obtain ⟨c', hs', hclosed⟩ := hstep on op s c hs
    obtain ⟨hreads', hsound'⟩ := hread _ _ hs'
    have hfirst : (∃ c, read (step on op s).2 = .ok c ∧ c.CompletedBelow) ↔ c'.Closed := by
      simp only [hreads', Except.ok.injEq, exists_eq_left',
        hsound'.wellFormed.completedBelow_iff_closed]
    have hspares : (∀ c, read s = .ok c →
        ¬ (op.CreatesBelowCompleted c ∧ ∃ a, (step on op s).1 = .ok a)) ↔ c'.Closed := by
      simp only [(hread s c hs).1, Except.ok.injEq, forall_eq', hclosed hc]
    rw [trace, List.forall_mem_cons, hfirst, SparesCompleted, hspares]
    exact and_congr_right fun hc' => ih hs' hc'

/-- The way of a history on any medium. -/
theorem completedBelow_onMedium (m : Medium) (h : History) :
    (∀ x ∈ trace m.step m.start h, ∃ c, m.records x.2 = .ok c ∧ c.CompletedBelow) ↔
      SparesCompleted m.step m.records m.start h := by
  refine completedBelow_iff_spares m.step m.records
    (fun s c => (c.Sound ∧ c.Fits m.limit ∧ s = m.holding c) ∨
      c = .empty ∧ ∃ d, m.Spent (m.undone d) ∧ s = m.undone d)
    ?_ ?_ (.inl ⟨.empty, Catalog.fits_empty _, m.start_eq⟩) .empty h
  · rintro _ c (⟨hc, hfits, rfl⟩ | ⟨rfl, d, hspent, rfl⟩)
    · exact ⟨m.records_holding hc hfits, hc⟩
    · exact ⟨Medium.records_undone hspent, .empty⟩
  · rintro on op _ c (⟨hc, hfits, rfl⟩ | ⟨rfl, d, hspent, rfl⟩)
    · rcases m.step_holding hc hfits on op with
        ⟨-, hfits', hstep⟩ | ⟨-, -, hstep⟩ | ⟨-, _, -, -, hstep⟩ <;> rw [hstep]
      · exact ⟨_, .inl ⟨(leaves_inMemory hc on op).sound, hfits', rfl⟩,
          fun hclosed => closed_inMemory hclosed on op⟩
      · rcases m.recovers_or_spent with hrecovers | hspends
        · exact ⟨c, .inl ⟨hc, hfits, hrecovers c⟩, fun hclosed => closed_iff_of_error rfl hclosed⟩
        · exact ⟨.empty, .inr ⟨rfl, c, hspends c, rfl⟩, fun _ => closed_iff_of_error rfl .empty⟩
      · exact ⟨c, .inl ⟨hc, hfits, rfl⟩, fun hclosed => closed_iff_of_error rfl hclosed⟩
    · -- nothing is read from a spent session, so there is nothing to create below
      refine ⟨.empty, .inr ⟨rfl, d, hspent, Medium.step_undone hspent on op⟩,
        fun hclosed => iff_of_true hclosed ?_⟩
      rintro ⟨⟨p, hp, -⟩, -⟩
      cases hp

/-- **Completed subtrees.**  Everything below completed tasks is completed at all times, wherever
the records are kept, if and only if no operation creates a task below a completed one. -/
theorem completedBelow_iff (h : History) :
    ((∀ x ∈ trace inMemory .empty h, x.2.CompletedBelow) ↔
        SparesCompleted inMemory .ok .empty h) ∧
      ((∀ x ∈ trace perOperation .empty h, ∃ c, x.2.records = .ok c ∧ c.CompletedBelow) ↔
        SparesCompleted perOperation Database.records .empty h) ∧
      ((∀ x ∈ trace sharedSession (Session.start .empty) h,
          ∃ c, x.2.current.records = .ok c ∧ c.CompletedBelow) ↔
        SparesCompleted sharedSession (·.current.records) (Session.start .empty) h) := by
  have hmemory : (∀ x ∈ trace inMemory .empty h,
      ∃ c, (.ok x.2 : Except Failure Catalog) = .ok c ∧ c.CompletedBelow) ↔
        SparesCompleted inMemory .ok .empty h := completedBelow_onMedium .memory h
  simp only [Except.ok.injEq, exists_eq_left'] at hmemory
  exact ⟨hmemory, completedBelow_onMedium .database h, completedBelow_onMedium .session h⟩

/-- A task with two children.  The first one is completed and then gets a child of its own; with the
second one completed, the task is completed too. -/
def jaunt : History :=
  [(⟨⟨1⟩, ⟨1#128⟩⟩, .createProject "Jaunt"), (⟨⟨2⟩, ⟨2#128⟩⟩, .createTask "Leave" ⟨1#128⟩ none),
    (⟨⟨3⟩, ⟨3#128⟩⟩, .createTask "Pack" ⟨1#128⟩ (some ⟨2#128⟩)),
    (⟨⟨4⟩, ⟨4#128⟩⟩, .createTask "Book" ⟨1#128⟩ (some ⟨2#128⟩)),
    (⟨⟨5⟩, ⟨5#128⟩⟩, .complete ⟨3#128⟩),
    (⟨⟨6⟩, ⟨6#128⟩⟩, .createTask "Find the passport" ⟨1#128⟩ (some ⟨3#128⟩)),
    (⟨⟨7⟩, ⟨7#128⟩⟩, .complete ⟨4#128⟩)]

/-- A completed task can have a task below it that is open. -/
theorem jaunt_not_completedBelow : ¬ (after inMemory .empty jaunt).CompletedBelow := by
  intro h
  have hopen : ∃ p ∈ (after inMemory .empty jaunt).tasks,
      ∃ q ∈ (after inMemory .empty jaunt).tasks, ∃ t ∈ (after inMemory .empty jaunt).tasks,
        p.status = .completed ∧ q.parent = some p.id ∧ t.parent = some q.id ∧
          t.status = .pending := by
    decide
  obtain ⟨p, hp, q, hq, t, ht, hdone, hqp, htq, hpending⟩ := hopen
  have hcompleted := h p hp hdone t ht ((Below.child hq hqp).trans (.child ht htq))
  rw [hpending] at hcompleted
  cases hcompleted

end History

end Agenda
