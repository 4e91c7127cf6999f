import Agenda.Proofs.History.Media

/-!
# Memory and database agree

As long as fewer than `2 ^ 63` tasks are stored, it makes no difference where the records are kept,
with one exception: a database cannot be handed a name that cannot be written.  So it has no answer
when a project is looked for by such a name, and it does not rename a task to one, which memory
does (`Operation.barred?`).  Whatever an operation does in tables is what it does in memory, but
for that (`inTables`).

`backends_agree` says so of every history.  If no task in memory gets a name that cannot be written,
each operation answers the same in memory, in sessions of their own and in one shared session, with
the same value or the same failure, and after each operation the same records are stored; only a
look for a project by such a name fails in a database, where it changes nothing.  If a task is about
to get such a name, tables keep what they have, and a shared session is spent.  A database never
refuses one of its own rows and never meets a number that does not fit.

The proof follows the history: each operation leads from a sound catalog and its rows to a sound
catalog and its rows (`Medium.step_tables`).
-/

namespace Agenda

variable {c : Catalog} {on : Occasion} {op : Operation} {name : Text}

/-! ### Operations in tables -/

/-- The name that keeps a database from doing an operation: one that cannot be written, by which a
project is looked for or which a stored task would be given. -/
def Operation.barred? (on : Occasion) (c : Catalog) : Operation → Option Text
  | .createProject name | .projectNamed name => if name.isWritable then none else some name
  | .rename id name =>
    if name.isWritable || ((Operation.rename id name).refusal? on c).isSome then none else some name
  | _ => none

/-- What an operation does with the records of a catalog if they are kept in tables. -/
def inTables : Step Catalog := fun on op c =>
  match op.barred? on c with
  | some name => (.error (.unwritable name), c)
  | none => inMemory on op c

/-- What an operation answers in tables if it answers `r` in memory, unless it renames a task. -/
def Operation.inTables (op : Operation) (r : Except Failure Answer) : Except Failure Answer :=
  match op.sought? with
  | some name => if name.isWritable then r else .error (.unwritable name)
  | none => r

namespace Operation

/-- A database is kept from a look for a project, or from renaming a task. -/
theorem barred?_eq_some_iff : op.barred? on c = some name ↔
    name.isWritable = false ∧
      (op.sought? = some name ∨ ∃ id, op = .rename id name ∧ op.refusal? on c = none) := by
  cases op with
  | createProject name' | projectNamed name' =>
    simp only [barred?, sought?]
    cases hw : name'.isWritable <;> aesop
  | rename id name' =>
    simp only [barred?, sought?]
    cases hw : name'.isWritable <;> cases hr : (rename id name').refusal? on c <;> aesop
  | _ => simp [barred?, sought?]

theorem barred?_eq_none_iff : op.barred? on c = none ↔
    (∀ name ∈ op.sought?, name.isWritable = true) ∧
      (op.refusal? on c = none → ∀ name, op.newName? = some name → name.isWritable = true) := by
  cases op with
  | createProject name' | projectNamed name' =>
    simp only [barred?, sought?, newName?]
    cases hw : name'.isWritable <;> simp [hw]
  | rename id name' =>
    simp only [barred?, sought?, newName?]
    cases hw : name'.isWritable <;> cases hr : (rename id name').refusal? on c <;> simp [hw]
  | _ => simp [barred?, sought?, newName?]

/-- Nothing but the name keeps a database from renaming a task. -/
theorem refusal?_of_barred {id : Uuid} (h : (rename id name).barred? on c = some name) :
    name.isWritable = false ∧ (rename id name).refusal? on c = none := by
  obtain ⟨hbad, hsought | ⟨_, -, hno⟩⟩ := barred?_eq_some_iff.1 h
  · cases hsought
  · exact ⟨hbad, hno⟩

end Operation

theorem inTables_of_barred (h : op.barred? on c = some name) :
    inTables on op c = (.error (.unwritable name), c) := by
  rw [inTables, h]

/-- Where memory holds no name that cannot be written, tables hold the same. -/
theorem inTables_of_writable (h : c.Sound) (hw : (inMemory on op c).2.Writable) :
    inTables on op c = (op.inTables (inMemory on op c).1, (inMemory on op c).2) := by
  unfold inTables Operation.inTables
  cases hbar : op.barred? on c with
  | none =>
    have hsought := (Operation.barred?_eq_none_iff.1 hbar).1
    cases hname : op.sought? with
    | none => rfl
    | some name =>
      dsimp only
      rw [if_pos (hsought name hname)]
  | some name =>
    obtain ⟨hbad, hsought | ⟨id, rfl, hno⟩⟩ := Operation.barred?_eq_some_iff.1 hbar
    · rw [hsought, unchanged_of_sought h hsought hbad]
      dsimp only
      rw [hbad]
      rfl
    · -- the task would have the name in memory
      obtain ⟨t, ht, rfl, -, hleft⟩ := (effect_inMemory h.wellFormed on _).of_rename hno
      have hnamed : ({ t with name := name, updated := on.now } : Task) ∈
          (inMemory on (.rename t.id name) c).2.tasks := by
        rw [hleft]
        exact List.mem_map.2 ⟨t, ht, if_pos rfl⟩
      exact absurd (hw _ hnamed) (Bool.eq_false_iff.1 hbad)

/-- What tables hold can be kept in tables. -/
theorem inTables_keeps (h : c.Sound) (hfits : c.Fits columnLimit)
    (hsmall : c.tasks.length < 2 ^ 63) (on : Occasion) (op : Operation) :
    (inTables on op c).2.Sound ∧ (inTables on op c).2.Fits columnLimit := by
  unfold inTables
  cases hbar : op.barred? on c with
  | some name => exact ⟨h, hfits⟩
  | none =>
    refine ⟨(leaves_inMemory h on op).sound, (inMemory_fits_iff h hfits).2 ?_⟩
    rintro _ ⟨⟩
    exact Operation.fits_of_lt hsmall (Operation.barred?_eq_none_iff.1 hbar).2

namespace Medium

variable {m : Medium}

/-- A database does not rename a task to a name that cannot be written. -/
theorem step_barred (hm : m ≠ .memory) (h : c.Sound) (hfits : c.Fits columnLimit) {id : Uuid}
    (hbar : (Operation.rename id name).barred? on c = some name) :
    m.step on (.rename id name) (m.holding c) = (.error (.unwritable name), m.undone c) := by
  rw [← limit_eq hm] at hfits
  obtain ⟨hbad, hno⟩ := Operation.refusal?_of_barred hbar
  refine step_of_not_fits h hfits (m.seeks_of_sought rfl) fun hover => ?_
  rw [inMemory_fits_iff h hfits, limit_eq hm] at hover
  exact absurd ((hover _ rfl).writable hno name rfl) (Bool.eq_false_iff.1 hbad)

/-- **One operation in a database** with fewer than `2 ^ 63` tasks.  It does what operations do in
tables; if it is kept from renaming a task, that is undone. -/
theorem step_tables (hm : m ≠ .memory) (h : c.Sound) (hfits : c.Fits columnLimit)
    (hsmall : c.tasks.length < 2 ^ 63) (on : Occasion) (op : Operation) :
    m.step on op (m.holding c) = ((inTables on op c).1, m.holding (inTables on op c).2) ∨
      ∃ id name, op = .rename id name ∧ op.barred? on c = some name ∧
        m.step on op (m.holding c) = (.error (.unwritable name), m.undone c) := by
  have hlimit := limit_eq hm
  have hfits' : c.Fits m.limit := hlimit ▸ hfits
  unfold inTables
  cases hbar : op.barred? on c with
  | none =>
    obtain ⟨hsought, hnew⟩ := Operation.barred?_eq_none_iff.1 hbar
    refine .inl (step_of_fits h hfits' (fun _ => hsought) ((inMemory_fits_iff h hfits').2 ?_))
    rw [hlimit]
    rintro _ ⟨⟩
    exact Operation.fits_of_lt hsmall hnew
  | some name =>
    obtain ⟨hbad, hsought | ⟨id, rfl, hno⟩⟩ := Operation.barred?_eq_some_iff.1 hbar
    · exact .inl (step_unsought hm hsought hbad c on)
    · exact .inr ⟨id, name, rfl, rfl, step_barred hm h hfits hbar⟩

end Medium

/-! ### Histories -/

namespace History

variable {m : Medium}

/-- From the rows of a sound catalog, a database goes the way of tables: any way if it recovers, or
a way on which no task in memory gets a name that cannot be written. -/
theorem trace_tables (hm : m ≠ .memory) (hc : c.Sound) (hfits : c.Fits columnLimit)
    (hc' : c.tasks.length < 2 ^ 63) (h : History)
    (hsmall : ∀ x ∈ trace inTables c h, x.2.tasks.length < 2 ^ 63)
    (hgood : (∀ c, m.undone c = m.holding c) ∨ ∀ x ∈ trace inMemory c h, x.2.Writable) :
    trace m.step (m.holding c) h = (trace inTables c h).map fun x => (x.1, m.holding x.2) := by
  induction h generalizing c with
  | nil => rfl
  | cons o rest ih =>
    obtain ⟨on, op⟩ := o
    obtain ⟨hsound, hfits'⟩ := inTables_keeps hc hfits hc' on op
    have hstep : m.step on op (m.holding c) =
        ((inTables on op c).1, m.holding (inTables on op c).2) := by
      rcases Medium.step_tables hm hc hfits hc' on op with hsame | ⟨id, name, rfl, hbar, hundone⟩
      · exact hsame
      · have htables := inTables_of_barred hbar
        rw [hundone, htables]
        rcases hgood with hrecovers | hwritable
        · rw [hrecovers c]
        · -- tables would have answered what memory does
          have hmemory := congrArg Prod.fst
            (inTables_of_writable hc (hwritable _ List.mem_cons_self))
          obtain ⟨t, -, -, hok, -⟩ := (effect_inMemory hc.wellFormed on _).of_rename
            (Operation.refusal?_of_barred hbar).2
          rw [htables, hok] at hmemory
          cases hmemory
    rw [trace, trace, List.map_cons, hstep]
    refine congrArg _ (ih hsound hfits' (hsmall _ List.mem_cons_self)
      (fun x hx => hsmall x (List.mem_cons_of_mem _ hx)) (hgood.imp_right fun hwritable => ?_))
    intro x hx
    rw [inTables_of_writable hc (hwritable _ List.mem_cons_self)] at hx
    exact hwritable x (List.mem_cons_of_mem _ hx)

/-- If no task in memory gets a name that cannot be written, tables go the way of memory, and only
looks for a project are answered in another way. -/
theorem trace_inTables (hc : c.Sound) (h : History)
    (hwritable : ∀ x ∈ trace inMemory c h, x.2.Writable) :
    trace inTables c h =
      (h.zip (trace inMemory c h)).map fun x => (x.1.2.inTables x.2.1, x.2.2) := by
  induction h generalizing c with
  | nil => rfl
  | cons o rest ih =>
    obtain ⟨on, op⟩ := o
    rw [trace, trace, List.zip_cons_cons, List.map_cons,
      inTables_of_writable hc (hwritable _ List.mem_cons_self)]
    exact congrArg _ (ih (leaves_inMemory hc on op).sound
      fun x hx => hwritable x (List.mem_cons_of_mem _ hx))

/-- On the way of tables from a sound catalog, all catalogs are sound and can be kept. -/
theorem sound_of_mem_trace (hc : c.Sound) (hfits : c.Fits columnLimit)
    (hc' : c.tasks.length < 2 ^ 63) (h : History)
    (hsmall : ∀ x ∈ trace inTables c h, x.2.tasks.length < 2 ^ 63) :
    ∀ x ∈ trace inTables c h, x.2.Sound ∧ x.2.Fits columnLimit := by
  induction h generalizing c with
  | nil => exact fun _ hx => nomatch hx
  | cons o rest ih =>
    obtain ⟨hsound, hfits'⟩ := inTables_keeps hc hfits hc' o.1 o.2
    intro x hx
    rcases List.mem_cons.1 hx with rfl | hx
    · exact ⟨hsound, hfits'⟩
    · exact ih hsound hfits' (hsmall _ List.mem_cons_self)
        (fun x hx => hsmall x (List.mem_cons_of_mem _ hx)) x hx

/-- What tables hold in the end is sound and can be kept. -/
theorem sound_after_inTables (h : History)
    (hsmall : ∀ x ∈ trace inTables .empty h, x.2.tasks.length < 2 ^ 63) :
    (after inTables .empty h).Sound ∧ (after inTables .empty h).Fits columnLimit := by
  have hlast : after inTables .empty h ∈ Catalog.empty :: (trace inTables .empty h).map (·.2) := by
    rw [after_eq_getLastD]
    exact List.getLastD_mem_cons
  rw [List.mem_cons, List.mem_map] at hlast
  have hfits := Catalog.fits_empty columnLimit
  rcases hlast with hempty | ⟨x, hx, hlast⟩
  · rw [hempty]
    exact ⟨.empty, hfits⟩
  · rw [← hlast]
    exact sound_of_mem_trace .empty hfits (by decide) h hsmall x hx

/-- What is left by tables is left by a database that goes their way. -/
theorem after_tables (hm : m ≠ .memory) (h : History)
    (hsmall : ∀ x ∈ trace inTables .empty h, x.2.tasks.length < 2 ^ 63)
    (hgood : (∀ c, m.undone c = m.holding c) ∨ ∀ x ∈ trace inMemory .empty h, x.2.Writable) :
    after m.step (m.holding .empty) h = m.holding (after inTables .empty h) := by
  rw [after_eq_getLastD, after_eq_getLastD,
    trace_tables hm .empty (Catalog.fits_empty _) (by decide) h hsmall hgood, List.map_map]
  induction trace inTables .empty h using List.reverseRecOn with
  | nil => rfl
  | append_singleton => simp

/-- What is left in memory is left by tables, if no task gets a name that cannot be written. -/
theorem after_inTables (h : History) (hwritable : ∀ x ∈ trace inMemory .empty h, x.2.Writable) :
    after inTables .empty h = after inMemory .empty h := by
  have hzip : (h.zip (trace inMemory .empty h)).map (·.2) = trace inMemory .empty h :=
    List.map_snd_zip (length_trace ..).le
  rw [after_eq_getLastD, after_eq_getLastD, trace_inTables .empty h hwritable, List.map_map]
  nth_rewrite 2 [← hzip]
  rw [List.map_map]
  rfl

/-- The records of a database that goes the way of tables are those of the tables. -/
theorem records_tables (hm : m ≠ .memory) (h : History)
    (hsmall : ∀ x ∈ trace inTables .empty h, x.2.tasks.length < 2 ^ 63)
    (hgood : (∀ c, m.undone c = m.holding c) ∨ ∀ x ∈ trace inMemory .empty h, x.2.Writable) :
    (trace m.step (m.holding .empty) h).map (fun x => (x.1, m.records x.2)) =
      (trace inTables .empty h).map (fun x => (x.1, .ok x.2)) := by
  have hfits := Catalog.fits_empty columnLimit
  rw [trace_tables hm .empty hfits (by decide) h hsmall hgood, List.map_map]
  refine List.map_congr_left fun x hx => ?_
  obtain ⟨hsound, hfits'⟩ := sound_of_mem_trace .empty hfits (by decide) h hsmall x hx
  exact Prod.ext rfl (m.records_holding hsound (Medium.limit_eq hm ▸ hfits'))

/-- What operations in tables fail with. -/
theorem failure_inTables (h : History) : ∀ x ∈ h.zip (trace inTables .empty h), ∀ e,
    x.2.1 = .error e → e.IsProblem ∨
      (∃ name home parent, x.1.2 = .createTask name home parent ∧ name.isWritable = false ∧
        e = .refused "Task" [.at "name" .unwritable (.plain (.text name))]) ∨
      ∃ name, name.isWritable = false ∧ e = .unwritable name ∧
        (x.1.2.sought? = some name ∨ ∃ id, x.1.2 = .rename id name) := by
  have hkeeps : ∀ on op (c : Catalog), c.Sound → (inTables on op c).2.Sound := by
    intro on op c hc
    unfold inTables
    split
    · exact hc
    · exact (leaves_inMemory hc on op).sound
  intro x hx e he
  obtain ⟨c, hc, hstep⟩ := exists_of_mem_zip_trace .empty hkeeps h x hx
  rw [hstep] at he
  unfold inTables at he
  split at he
  · rename_i name hbar
    cases he
    obtain ⟨hbad, hsought⟩ := Operation.barred?_eq_some_iff.1 hbar
    exact .inr (.inr ⟨name, hbad, rfl, hsought.imp_right fun ⟨id, hid, _⟩ => ⟨id, hid⟩⟩)
  · have heffect := effect_inMemory hc.wellFormed x.1.1 x.1.2
    rw [he] at heffect
    exact (Operation.isProblem_of_refusal heffect.refusal?_eq_some).imp_right .inl

/-- **Agreement.**  With fewer than `2 ^ 63` tasks at all times, operations in sessions of their own
answer and store what they do in tables.  If no task in memory gets a name that cannot be written,
operations in memory, in sessions of their own and in one shared session answer the same and store
the same records, except that a look for a project by such a name fails in a database.  If a task
gets such a name in memory, tables keep what they have, and a shared session is spent.  Operations
in tables fail with problems only, but for names that cannot be written. -/
theorem backends_agree (h : History)
    (hsmall : ∀ x ∈ trace inTables .empty h, x.2.tasks.length < 2 ^ 63) :
    (trace perOperation .empty h).map (fun x => (x.1, x.2.records)) =
        (trace inTables .empty h).map (fun x => (x.1, .ok x.2)) ∧
      ((∀ x ∈ trace inMemory .empty h, x.2.Writable) →
        (trace inTables .empty h =
            (h.zip (trace inMemory .empty h)).map fun x => (x.1.2.inTables x.2.1, x.2.2)) ∧
          (trace sharedSession (Session.start .empty) h).map (fun x => (x.1, x.2.current.records)) =
            (trace inTables .empty h).map (fun x => (x.1, .ok x.2)) ∧
          ∀ on id name,
            (Operation.rename id name).barred? on (after inMemory .empty h) = some name →
            (∃ t ∈ (after inMemory .empty h).tasks, t.id = id ∧
              (inMemory on (.rename id name) (after inMemory .empty h)).1 =
                .ok (.ofTask { t with name := name, updated := on.now })) ∧
            perOperation on (.rename id name) (after perOperation .empty h) =
              (.error (.unwritable name), after perOperation .empty h) ∧
            sharedSession on (.rename id name) (after sharedSession (Session.start .empty) h) =
              (.error (.unwritable name), Session.undone .empty)) ∧
      ∀ x ∈ h.zip (trace inTables .empty h), ∀ e, x.2.1 = .error e → e.IsProblem ∨
        (∃ name home parent, x.1.2 = .createTask name home parent ∧ name.isWritable = false ∧
          e = .refused "Task" [.at "name" .unwritable (.plain (.text name))]) ∨
        ∃ name, name.isWritable = false ∧ e = .unwritable name ∧
          (x.1.2.sought? = some name ∨ ∃ id, x.1.2 = .rename id name) := by
  have hdatabase : Medium.database ≠ .memory := by decide
  have hsession : Medium.session ≠ .memory := by decide
  have hrecovers : ∀ c, Medium.database.undone c = Medium.database.holding c := fun _ => rfl
  refine ⟨records_tables hdatabase h hsmall (.inl hrecovers), fun hwritable => ⟨?_, ?_, ?_⟩,
    failure_inTables h⟩
  · exact trace_inTables .empty h hwritable
  · exact records_tables hsession h hsmall (.inr hwritable)
  · intro on id name hbar
    have hafter := after_inTables h hwritable
    have hlast := sound_after_inTables h hsmall
    have hown := after_tables hdatabase h hsmall (.inl hrecovers)
    have hshared := after_tables hsession h hsmall (.inr hwritable)
    rw [hafter] at hlast hown hshared
    change after perOperation .empty h = _ at hown
    change after sharedSession (Session.start .empty) h = _ at hshared
    obtain ⟨hc, hfits⟩ := hlast
    obtain ⟨t, ht, hid, hok, -⟩ := (effect_inMemory hc.wellFormed on _).of_rename
      (Operation.refusal?_of_barred hbar).2
    rw [hown, hshared]
    exact ⟨⟨t, ht, hid, hok⟩, Medium.step_barred hdatabase hc hfits hbar,
      Medium.step_barred hsession hc hfits hbar⟩

/-- A text that cannot be written: a surrogate alone. -/
def stray : Text := ⟨[.stray]⟩

/-- A project with two tasks, of which the lower one is completed, the upper one put behind itself
and the lower one given again; a third one is refused for its name, a project with such a name is
looked for, and the first two are removed. -/
def chores : History :=
  [(⟨⟨0⟩, ⟨1#128⟩⟩, .createProject "Home"), (⟨⟨1⟩, ⟨2#128⟩⟩, .createTask "Sweep" ⟨1#128⟩ none),
    (⟨⟨2⟩, ⟨3#128⟩⟩, .createTask "Mop" ⟨1#128⟩ (some ⟨2#128⟩)),
    (⟨⟨3⟩, ⟨4#128⟩⟩, .complete ⟨3#128⟩), (⟨⟨4⟩, ⟨5#128⟩⟩, .reorder ⟨2#128⟩ 7),
    (⟨⟨5⟩, ⟨3#128⟩⟩, .createTask "Mop" ⟨1#128⟩ none),
    (⟨⟨6⟩, ⟨7#128⟩⟩, .createTask stray ⟨1#128⟩ none), (⟨⟨7⟩, ⟨8#128⟩⟩, .projectNamed stray),
    (⟨⟨8⟩, ⟨6#128⟩⟩, .delete ⟨2#128⟩)]

theorem backends_agree_chores :
    (∀ x ∈ trace inTables .empty chores, x.2.tasks.length < 2 ^ 63) ∧
      (∀ x ∈ trace inMemory .empty chores, x.2.Writable) ∧
      (trace perOperation .empty chores).map (fun x => (x.1, x.2.records)) =
        (trace inTables .empty chores).map (fun x => (x.1, .ok x.2)) ∧
      (trace sharedSession (Session.start .empty) chores).map
          (fun x => (x.1, x.2.current.records)) =
        (trace inTables .empty chores).map (fun x => (x.1, .ok x.2)) ∧
      trace inTables .empty chores =
        (chores.zip (trace inMemory .empty chores)).map fun x => (x.1.2.inTables x.2.1, x.2.2) := by
  have hsmall : ∀ x ∈ trace inTables .empty chores, x.2.tasks.length < 2 ^ 63 := by decide
  have hwritable : ∀ x ∈ trace inMemory .empty chores, x.2.Writable := by
    unfold Catalog.Writable
    decide
  obtain ⟨hown, hmemory, -⟩ := backends_agree chores hsmall
  exact ⟨hsmall, hwritable, hown, (hmemory hwritable).2.1, (hmemory hwritable).1⟩

/-- Looking for a project with a name that cannot be written. -/
def search : History := [(⟨⟨0⟩, ⟨1#128⟩⟩, .projectNamed stray)]

/-- Memory finds no project with such a name; a database cannot look for it. -/
theorem backends_differ_search :
    (trace perOperation .empty search).map (·.1) ≠ (trace inMemory .empty search).map (·.1) := by
  have hmemory : (trace inMemory .empty search).map (·.1) = [.ok .nothing] := rfl
  have hdatabase :
      (trace perOperation .empty search).map (·.1) = [.error (.unwritable stray)] := rfl
  rw [hmemory, hdatabase]
  exact fun h => nomatch h

end History

end Agenda
