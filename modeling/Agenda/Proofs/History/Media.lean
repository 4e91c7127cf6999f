import Agenda.Proofs.History.Basic
import Agenda.Proofs.Operation.Cases

/-!
# Media

`Medium` names the three ways of keeping records: in memory, in a database with a session for each
operation, and in a database with one session for all of them.  The columns of a database set a
limit to the orders that it can keep, and it keeps only names that can be written; memory takes
everything (`Catalog.Fits`).

**One law for all media** (`Medium.step_holding`).  An operation does on any medium what it does in
memory, as long as the medium can take what it leaves there; if it cannot, the operation fails and
the records stay what they were, but a session that others share is spent by it.  And in a database
there is no looking for a project by a name that cannot be written.  So a statement about operations
in memory, with what it says of orders and names, is a statement about all media.  What a medium
holds after a history is a sound catalog that it can take, unless it is a spent session
(`Medium.after_cases`).

That a session is broken off by nothing but what it cannot take has two sides.  From a catalog
within the limit, an operation passes only through catalogs within the limit if it ends in one
(`sharedSession_of_fits`); and a session never holds a row that does not fit (`Program.run_fits`).
-/

namespace Agenda

variable {B : Nat} {c : Catalog} {on : Occasion} {op : Operation} {name : Text}

/-! ### Limits -/

/-- Where there is a limit to orders, all orders are below it, and all names can be written. -/
def Catalog.Fits (limit : Option Nat) (c : Catalog) : Prop :=
  ∀ B ∈ limit, ∀ t ∈ c.tasks, t.order < B ∧ t.name.isWritable = true

/-- A point of a name that cannot be written: the surrogate U+DCFF, as which a byte is read that is
no part of UTF-8. -/
def Text.Point.stray : Text.Point := .half 0x4ff

/-- The limit that the columns of a database set to orders that are not negative. -/
def columnLimit : Option Nat := some 9223372036854775808

namespace Catalog

theorem fits_none (c : Catalog) : c.Fits none := fun _ h => nomatch h

theorem fits_empty (limit : Option Nat) : Catalog.empty.Fits limit := fun _ _ _ h => nomatch h

theorem Fits.order_lt (h : c.Fits (some B)) : ∀ t ∈ c.tasks, t.order < B :=
  fun t ht => (h B rfl t ht).1

theorem Fits.writable (h : c.Fits (some B)) : c.Writable := fun t ht => (h B rfl t ht).2

/-- A dense group whose orders are below a bound has no more members than that. -/
theorem Dense.length_members_le (h : c.Dense) (hB : ∀ t ∈ c.tasks, t.order < B) (g : Group) :
    (c.members g).length ≤ B := by
  cases hsize : (c.members g).length with
  | zero => exact Nat.zero_le B
  | succ n =>
    -- the last place is the order of a member
    have hlast : (n : Int) ∈ places (c.members g).length :=
      mem_places.2 ⟨Int.natCast_nonneg n, by omega⟩
    obtain ⟨t, ht, horder⟩ := List.mem_map.1 ((h g).mem_iff.2 hlast)
    have hbound := hB t (mem_members.1 ht).1
    omega

/-- How far the orders of a dense catalog go depends on the sizes of its groups. -/
theorem Dense.fits_iff (h : c.Dense) {limit : Option Nat} :
    c.Fits limit ↔ ∀ B ∈ limit, (∀ g, (c.members g).length ≤ B) ∧ c.Writable := by
  constructor
  · exact fun hfits B hB => ⟨h.length_members_le fun t ht => (hfits B hB t ht).1,
      fun t ht => (hfits B hB t ht).2⟩
  · intro hsizes B hB t ht
    have horder := (h t.group).order_bounds (mem_members.2 ⟨ht, rfl⟩)
    have hsize := (hsizes B hB).1 t.group
    exact ⟨by omega, (hsizes B hB).2 t ht⟩

theorem Sound.tidy_of_fits (h : c.Sound) (hfits : c.Fits (some B)) : c.Tidy B where
  toForest := h.wellFormed.forest
  toValid := h.valid hfits.writable
  orders := hfits.order_lt

/-- The rows of a sound catalog fit if it keeps the limit of the columns. -/
theorem Sound.fits_ofCatalog_iff (h : c.Sound) :
    (Database.ofCatalog c).Fits ↔ c.Fits columnLimit := by
  have hcolumn : ∀ t ∈ c.tasks,
      (Store.fitsColumn t.order = true ↔ t.order < (9223372036854775808 : Nat)) := by
    intro t ht
    have hlow := (h.dense.order_bounds ht).1
    rw [Store.fitsColumn, Bool.and_eq_true, decide_eq_true_eq, decide_eq_true_eq]
    omega
  constructor
  · rintro hrows _ ⟨⟩ t ht
    have hrow := hrows _ (List.mem_map_of_mem ht)
    exact ⟨(hcolumn t ht).1 hrow.1, hrow.2⟩
  · intro hfits r hr
    obtain ⟨t, ht, rfl⟩ := List.mem_map.1 hr
    have htask := hfits _ rfl t ht
    exact ⟨(hcolumn t ht).2 htask.1, htask.2⟩

end Catalog

namespace Effect

variable {r : Except Failure Answer} {c' : Catalog}

/-- If what an operation leaves keeps a limit, there was room for it, and its name can be
written. -/
theorem fits (h : Effect on c op r c') (hdense : c.Dense) (hfits : c.Fits (some B))
    (hfits' : c'.Fits (some B)) : op.Fits on B c where
  groups := hdense.length_members_le hfits.order_lt
  room := by
    intro hno g hg
    cases op with
    | createTask name home parent =>
      obtain ⟨-, rfl, -⟩ := h.of_createTask hno
      have hlast := hfits'.order_lt _ (List.mem_append_right _ List.mem_cons_self)
      rw [Operation.newGroup?_createTask on, Option.some.injEq] at hg
      subst hg
      exact Int.ofNat_lt.1 hlast
    | _ => cases hg
  writable := by
    intro hno name hname
    cases op with
    | rename id name' =>
      cases hname
      obtain ⟨t, ht, rfl, -, rfl⟩ := h.of_rename hno
      exact hfits'.writable { t with name := name, updated := on.now }
        (List.mem_map.2 ⟨t, ht, if_pos rfl⟩)
    | _ => cases hname

end Effect

/-- What an operation leaves keeps a limit if and only if there is room for what it does, and its
name can be written. -/
theorem inMemory_fits_iff {limit : Option Nat} (h : c.Sound) (hfits : c.Fits limit) :
    (inMemory on op c).2.Fits limit ↔ ∀ B ∈ limit, op.Fits on B c := by
  cases limit with
  | none => exact iff_of_true (Catalog.fits_none _) fun _ hB => nomatch hB
  | some B =>
    simp only [Option.mem_some_iff, forall_eq']
    refine ⟨(effect_inMemory h.wellFormed on op).fits h.dense hfits, fun hallowed => ?_⟩
    have hkeeps : c.KeepsTidy (op.Fits on B c) B (inMemory on op c).2 :=
      (op.meets_effect on B h.wellFormed.whole).last (.refl _ B c)
    have htidy := hkeeps.tidy hallowed (h.tidy_of_fits hfits)
    rintro _ ⟨⟩ t ht
    have hname := (Task.errors_eq_nil.1 (htidy.tasks t ht)).1
    exact ⟨htidy.orders t ht, (NameRule.refusal?_eq_none_iff.1 hname).1⟩

/-- An operation that creates no task and gives no name leaves what keeps a limit. -/
theorem inMemory_fits {limit : Option Nat} (h : c.Sound) (hfits : c.Fits limit)
    (hgroup : op.newGroup? = none) (hname : op.newName? = none) :
    (inMemory on op c).2.Fits limit := by
  refine (inMemory_fits_iff h hfits).2 fun B hB => ⟨((h.dense.fits_iff.1 hfits) B hB).1, ?_, ?_⟩
  · intro _ g hg
    rw [hgroup] at hg
    cases hg
  · intro _ name hnew
    rw [hname] at hnew
    cases hnew

/-- What an operation leaves does not keep a limit only if it gives a name that cannot be written,
or if there is no room for a new task. -/
theorem cause_of_not_fits (h : c.Sound) (hfits : c.Fits (some B))
    (hover : ¬ (inMemory on op c).2.Fits (some B)) : op.refusal? on c = none ∧
      ((∃ name, op.newName? = some name ∧ name.isWritable = false) ∨
        ∃ g, op.newGroup? = some g ∧ B ≤ (c.members g).length) := by
  by_contra hno
  push Not at hno
  simp only [Bool.not_eq_false] at hno
  refine hover ((inMemory_fits_iff h hfits).2 ?_)
  rintro _ ⟨⟩
  exact ⟨h.dense.length_members_le hfits.order_lt, fun hgranted => (hno hgranted).2,
    fun hgranted => (hno hgranted).1⟩

/-- A look for a project by a name that cannot be written changes nothing in memory: if the project
is to be created, its name is refused. -/
theorem unchanged_of_sought (h : c.Sound) (hsought : op.sought? = some name)
    (hname : name.isWritable = false) : (inMemory on op c).2 = c := by
  have heffect := effect_inMemory h.wellFormed on op
  cases op with
  | createProject name' =>
    cases hsought
    generalize inMemory on (.createProject name) c = ran at heffect
    obtain ⟨r, c'⟩ := ran
    cases heffect with
    | refused => rfl
    | looked _ ha => cases ha
    | createdProject _ _ hrule =>
      rw [(NameRule.refusal?_eq_none_iff.1 hrule).1] at hname
      cases hname
    | given _ hstatus => cases hstatus
  | projectNamed => exact heffect.of_isLook trivial
  | _ => cases hsought

/-! ### One operation on a database -/

/-- What an operation fails with where it leaves what a database cannot take. -/
def Operation.unfit : Operation → Failure
  | .rename _ name => .unwritable name
  | _ => .overflow

section Exact

/-- If an operation ends within the limit of the columns, a session follows it. -/
theorem sharedSession_of_fits (opened : Database) (h : c.Sound) (hfits : c.Fits columnLimit)
    (hsought : ∀ name ∈ op.sought?, name.isWritable = true)
    (hfits' : (inMemory on op c).2.Fits columnLimit) :
    sharedSession on op (Session.holding opened c) =
      ((inMemory on op c).1, Session.holding opened (inMemory on op c).2) := by
  have hallowed := (effect_inMemory h.wellFormed on op).fits h.dense hfits hfits'
  rcases sharedSession_tidy opened h.wellFormed.whole (h.tidy_of_fits hfits) hallowed hsought with
    hsame | ⟨hbig, -⟩
  · exact hsame
  · omega

/-- A session is broken off by a new name that cannot be written. -/
theorem sharedSession_rename (opened : Database) {id : Uuid}
    (hno : (Operation.rename id name).refusal? on c = none) (hname : name.isWritable = false) :
    sharedSession on (.rename id name) (Session.holding opened c) =
      (.error (.unwritable name), Session.undone opened) := by
  rw [Operation.refusal?, Option.or_eq_none_iff, Option.map_eq_none_iff] at hno
  obtain ⟨hread, hstored⟩ := hno
  have hfound : (c.find? id).isSome = true := by
    by_contra hmissing
    rw [Catalog.noTask?, if_neg hmissing] at hstored
    cases hstored
  have hanswer : Store.Backend.answer on.now (.rename id name) (Session.holding opened c) =
      (.error (.unwritable name), Session.undone opened) := by
    have hrefused : (Database.ofCatalog c).rename on.now id name =
        (.error (.unwritable name), .ofCatalog c) := by
      rw [Database.rename, Database.findRow?_ofCatalog, Option.isSome_map, hfound, hname]
      rfl
    change Session.answer on.now (.rename id name) _ = _
    simp only [Session.answer, Session.holding, Bool.false_eq_true, if_false, Database.answer,
      hrefused]
    rfl
  have hran : (Tasks.rename id name).outcome on.now (Session.holding opened c) =
      (.error (.unwritable name), Session.undone opened) := by
    rw [Tasks.rename, Task.checkName_of_granted hread]
    change (Program.inContext _ (Tasks.reporting _ _ (Program.ask (.rename id name))) >>= _ :
      Program Task).outcome on.now (Session.holding opened c) = _
    rw [Program.outcome_bind, Program.outcome_inContext, Tasks.reporting, Program.outcome_handle,
      Program.outcome_ask, hanswer]
    rfl
  change ((Operation.rename id name).program on).outcome on.now (Session.holding opened c) = _
  rw [Operation.program, Operation.plan, Plan.alone_ofProgram, Program.outcome_map, hran]
  rfl

/-- If an operation ends outside of the limit of the columns, it breaks a session off. -/
theorem sharedSession_of_not_fits {opened : Database} (hopened : opened.Fits) (h : c.Sound)
    (hfits : c.Fits columnLimit) (hsought : ∀ name ∈ op.sought?, name.isWritable = true)
    (hfits' : ¬ (inMemory on op c).2.Fits columnLimit) :
    sharedSession on op (Session.holding opened c) = (.error op.unfit, Session.undone opened) := by
  cases hnew : op.newName? with
  | some name =>
    cases op with
    | rename id name' =>
      -- there is room, so it is the name
      have hname : ¬ ((Operation.rename id name').refusal? on c = none →
          name'.isWritable = true) := fun hwritable =>
        hfits' ((inMemory_fits_iff h hfits).2 fun B hB => ⟨((h.dense.fits_iff.1 hfits) B hB).1,
          fun _ _ hg => (nomatch hg), fun hno _ hnew => Option.some.inj hnew ▸ hwritable hno⟩)
      rw [Classical.not_imp, Bool.not_eq_true] at hname
      exact sharedSession_rename opened hname.1 hname.2
    | _ => cases hnew
  | none =>
    have hallowed : op.Fits on (c.tasks.length + 1) c :=
      Operation.fits_of_lt (Nat.lt_succ_self _) fun _ name hname => by
        rw [hnew] at hname
        cases hname
    rcases sharedSession_tidy opened h.wellFormed.whole
        (h.tidy hfits.writable (Nat.le_succ _)) hallowed hsought with hsame | ⟨-, hover⟩
    · -- the session would hold a row that does not fit
      have hrows : (sharedSession on op (Session.holding opened c)).2.current.Fits :=
        Program.run_fits (op.program on) hopened (h.fits_ofCatalog_iff.2 hfits)
      rw [hsame] at hrows
      exact absurd ((leaves_inMemory h on op).sound.fits_ofCatalog_iff.1 hrows) hfits'
    · rw [hover]
      cases op with
      | rename => cases hnew
      | _ => rfl

/-- A session is not broken off by a look for a project whose name cannot be written, but there is
no such look. -/
theorem sharedSession_unsought (opened : Database) (hsought : op.sought? = some name)
    (hname : name.isWritable = false) :
    sharedSession on op (Session.holding opened c) =
      (.error (.unwritable name), Session.holding opened c) := by
  have hanswer : Store.Backend.answer on.now (.projectNamed name) (Session.holding opened c) =
      (.error (.unwritable name), Session.holding opened c) :=
    Session.answer_eq opened (Prod.ext (Database.projectNamed_unwritable hname _) rfl) rfl
  change (op.program on).outcome on.now (Session.holding opened c) = _
  cases op with
  | createProject =>
    cases hsought
    have hran : (Projects.create on name).outcome on.now (Session.holding opened c) =
        (.error (.unwritable name), Session.holding opened c) := by
      change (Program.ask (.projectNamed name) >>= _ : Program Project).outcome on.now
        (Session.holding opened c) = _
      rw [Program.outcome_bind, Program.outcome_ask, hanswer]
      rfl
    rw [Operation.program, Operation.plan, Plan.alone_ofProgram, Program.outcome_map, hran]
    rfl
  | projectNamed =>
    cases hsought
    rw [Operation.program, Operation.plan, Plan.alone_ofProgram, Program.outcome_map,
      Program.outcome_ask, hanswer]
    rfl
  | _ => cases hsought

theorem perOperation_of_fits (h : c.Sound) (hfits : c.Fits columnLimit)
    (hsought : ∀ name ∈ op.sought?, name.isWritable = true)
    (hfits' : (inMemory on op c).2.Fits columnLimit) :
    perOperation on op (.ofCatalog c) =
      ((inMemory on op c).1, .ofCatalog (inMemory on op c).2) :=
  perOperation_of_holding h.wellFormed (sharedSession_of_fits _ h hfits hsought hfits')

/-- What fails in a session of its own leaves the tables as they were. -/
theorem perOperation_of_error {e : Failure} {s : Session}
    (h : sharedSession on op (Session.holding (.ofCatalog c) c) = (.error e, s)) :
    perOperation on op (.ofCatalog c) = (.error e, .ofCatalog c) := by
  have herror : (perOperation on op (.ofCatalog c)).1 = .error e :=
    (Database.inSession_result _ _).trans (congrArg Prod.fst h)
  exact Prod.ext herror (Database.inSession_of_error herror)

end Exact

/-! ### All media -/

/-- Where records are kept. -/
inductive Medium
  /-- In memory. -/
  | memory
  /-- In a database, with a session for each operation. -/
  | database
  /-- In a database, with one session for all operations. -/
  | session
  deriving DecidableEq, Repr

namespace Medium

/-- What a medium is made of. -/
def State : Medium → Type
  | .memory => Catalog
  | .database => Database
  | .session => Session

/-- An operation on a medium. -/
def step : (m : Medium) → Step m.State
  | .memory => inMemory
  | .database => perOperation
  | .session => sharedSession

/-- A medium without records. -/
def start : (m : Medium) → m.State
  | .memory => .empty
  | .database => .empty
  | .session => Session.start .empty

/-- The records on a medium, read and checked. -/
def records : (m : Medium) → m.State → Except Failure Catalog
  | .memory, c => .ok c
  | .database, db => db.records
  | .session, s => s.current.records

/-- The medium is a session that was broken off. -/
def Spent : (m : Medium) → m.State → Prop
  | .session, s => s.spent = true
  | _, _ => False

/-- A medium after a history. -/
def after (m : Medium) (h : History) : m.State := History.after m.step m.start h

theorem after_append (m : Medium) (h h' : History) :
    m.after (h ++ h') = History.after m.step (m.after h) h' :=
  History.after_append m.step m.start h h'

theorem after_concat (m : Medium) (h : History) (on : Occasion) (op : Operation) :
    m.after (h ++ [(on, op)]) = (m.step on op (m.after h)).2 := m.after_append h _

/-- The limit that a medium sets to orders; where there is one, names have to be writable. -/
def limit : Medium → Option Nat
  | .memory => none
  | _ => columnLimit

theorem limit_eq {m : Medium} (hm : m ≠ .memory) : m.limit = columnLimit := by
  cases m with
  | memory => exact absurd rfl hm
  | database | session => rfl

/-- The medium with the records of a catalog. -/
def holding : (m : Medium) → Catalog → m.State
  | .memory, c => c
  | .database, c => .ofCatalog c
  | .session, c => Session.holding .empty c

theorem start_eq (m : Medium) : m.start = m.holding .empty := by
  cases m <;> rfl

/-- The medium after an operation on the records of a catalog that left what it cannot take. -/
def undone : (m : Medium) → Catalog → m.State
  | .session, _ => Session.undone .empty
  | m, c => m.holding c

/-- The medium can look for the project that an operation looks for by its name. -/
def Seeks (m : Medium) (op : Operation) : Prop :=
  m ≠ .memory → ∀ name ∈ op.sought?, name.isWritable = true

variable {m : Medium}

/-- Where no project is looked for by its name, there is nothing that could go wrong with that. -/
theorem seeks_of_sought (m : Medium) (h : op.sought? = none) : m.Seeks op := by
  intro _ name hname
  rw [h] at hname
  cases hname

/-- Whether a medium can look for a name, and which name it cannot look for. -/
theorem seeks_or (m : Medium) (op : Operation) : m.Seeks op ∨
    m ≠ .memory ∧ ∃ name, op.sought? = some name ∧ name.isWritable = false := by
  by_cases hseeks : m.Seeks op
  · exact .inl hseeks
  · unfold Seeks at hseeks
    push Not at hseeks
    obtain ⟨hm, name, hname, hbad⟩ := hseeks
    exact .inr ⟨hm, name, hname, Bool.eq_false_iff.2 hbad⟩

/-- The records of a sound catalog that a medium can take are read as that catalog. -/
theorem records_holding (m : Medium) (h : c.Sound) (hfits : c.Fits m.limit) :
    m.records (m.holding c) = .ok c := by
  cases m with
  | memory => rfl
  | database | session => exact Database.records_ofCatalog (h.valid hfits.writable)

/-- Only memory can look for a name that cannot be written. -/
theorem step_unsought (hm : m ≠ .memory) (hsought : op.sought? = some name)
    (hname : name.isWritable = false) (c : Catalog) (on : Occasion) :
    m.step on op (m.holding c) = (.error (.unwritable name), m.holding c) := by
  cases m with
  | memory => exact absurd rfl hm
  | database => exact perOperation_of_error (sharedSession_unsought _ hsought hname)
  | session => exact sharedSession_unsought .empty hsought hname

/-- **One operation on any medium.**  It does what it does in memory, unless that is something that
the medium cannot take or look for; then it fails. -/
theorem step_holding (m : Medium) (h : c.Sound) (hfits : c.Fits m.limit) (on : Occasion)
    (op : Operation) :
    (m.Seeks op ∧ (inMemory on op c).2.Fits m.limit ∧
        m.step on op (m.holding c) = ((inMemory on op c).1, m.holding (inMemory on op c).2)) ∨
      (m.Seeks op ∧ ¬ (inMemory on op c).2.Fits m.limit ∧
        m.step on op (m.holding c) = (.error op.unfit, m.undone c)) ∨
      (m ≠ .memory ∧ ∃ name, op.sought? = some name ∧ name.isWritable = false ∧
        m.step on op (m.holding c) = (.error (.unwritable name), m.holding c)) := by
  rcases m.seeks_or op with hseeks | ⟨hm, name, hsought, hname⟩
  · by_cases hfits' : (inMemory on op c).2.Fits m.limit
    · refine .inl ⟨hseeks, hfits', ?_⟩
      cases m with
      | memory => rfl
      | database => exact perOperation_of_fits h hfits (hseeks (by decide)) hfits'
      | session => exact sharedSession_of_fits .empty h hfits (hseeks (by decide)) hfits'
    · refine .inr (.inl ⟨hseeks, hfits', ?_⟩)
      cases m with
      | memory => exact absurd (Catalog.fits_none _) hfits'
      | database =>
        exact perOperation_of_error (sharedSession_of_not_fits (h.fits_ofCatalog_iff.2 hfits) h
          hfits (hseeks (by decide)) hfits')
      | session =>
        exact sharedSession_of_not_fits (fun _ hr => nomatch hr) h hfits (hseeks (by decide)) hfits'
  · exact .inr (.inr ⟨hm, name, hsought, hname, step_unsought hm hsought hname c on⟩)

/-- Within the limit, any medium does what memory does. -/
theorem step_of_fits (h : c.Sound) (hfits : c.Fits m.limit) (hseeks : m.Seeks op)
    (hfits' : (inMemory on op c).2.Fits m.limit) :
    m.step on op (m.holding c) = ((inMemory on op c).1, m.holding (inMemory on op c).2) := by
  rcases m.step_holding h hfits on op with hstep | hover | ⟨hm, name, hsought, hname, -⟩
  · exact hstep.2.2
  · exact absurd hfits' hover.2.1
  · exact absurd (hseeks hm name hsought) (Bool.eq_false_iff.1 hname)

/-- Beyond the limit, an operation fails, and what it has done is undone. -/
theorem step_of_not_fits (h : c.Sound) (hfits : c.Fits m.limit) (hseeks : m.Seeks op)
    (hover : ¬ (inMemory on op c).2.Fits m.limit) :
    m.step on op (m.holding c) = (.error op.unfit, m.undone c) := by
  rcases m.step_holding h hfits on op with hstep | hstep | ⟨hm, name, hsought, hname, -⟩
  · exact absurd hstep.2.1 hover
  · exact hstep.2.2
  · exact absurd (hseeks hm name hsought) (Bool.eq_false_iff.1 hname)

/-- A medium either recovers from whatever it cannot take, or whatever it cannot take spends it. -/
theorem recovers_or_spent (m : Medium) :
    (∀ c, m.undone c = m.holding c) ∨ ∀ c, m.Spent (m.undone c) := by
  cases m with
  | memory | database => exact .inl fun _ => rfl
  | session => exact .inr fun _ => rfl

/-- A spent session shows what was stored when it was opened: nothing. -/
theorem records_undone (h : m.Spent (m.undone c)) :
    m.records (m.undone c) = .ok .empty := by
  cases m with
  | memory | database => exact h.elim
  | session => exact session.records_holding .empty (Catalog.fits_empty _)

/-- A spent session stays as it is. -/
theorem step_undone (h : m.Spent (m.undone c)) (on : Occasion) (op : Operation) :
    (m.step on op (m.undone c)).2 = m.undone c := by
  cases m with
  | memory | database => exact h.elim
  | session => exact Program.run_undone _

/-- A spent session stays as it is, whatever comes. -/
theorem after_undone (h : m.Spent (m.undone c)) (later : History) :
    History.after m.step (m.undone c) later = m.undone c := by
  induction later with
  | nil => rfl
  | cons o later ih =>
    rw [← List.singleton_append, History.after_append]
    change History.after m.step (m.step o.1 o.2 (m.undone c)).2 later = _
    rw [step_undone h, ih]

/-- **What a medium holds**: a sound catalog that it can take, unless it is a spent session. -/
theorem after_cases (m : Medium) (h : History) :
    (∃ c : Catalog, c.Sound ∧ c.Fits m.limit ∧ m.after h = m.holding c) ∨
      m.Spent (m.after h) ∧ ∃ c, m.after h = m.undone c := by
  refine History.after_induction (I := fun s => (∃ c : Catalog, c.Sound ∧ c.Fits m.limit ∧
    s = m.holding c) ∨ m.Spent s ∧ ∃ c, s = m.undone c)
    (.inl ⟨.empty, .empty, Catalog.fits_empty _, m.start_eq⟩) ?_ h
  rintro on op _ (⟨c, hc, hfits, rfl⟩ | ⟨hspent, c, rfl⟩)
  · rcases m.step_holding hc hfits on op with
      ⟨-, hfits', hstep⟩ | ⟨-, -, hstep⟩ | ⟨-, _, -, -, hstep⟩
    · rw [hstep]
      exact .inl ⟨_, (leaves_inMemory hc on op).sound, hfits', rfl⟩
    · rw [hstep]
      rcases m.recovers_or_spent with hrecovers | hspends
      · exact .inl ⟨c, hc, hfits, hrecovers c⟩
      · exact .inr ⟨hspends c, c, rfl⟩
    · rw [hstep]
      exact .inl ⟨c, hc, hfits, rfl⟩
  · rw [step_undone hspent]
    exact .inr ⟨hspent, c, rfl⟩

/-- What is read from a medium is a sound catalog; from a spent session, the empty one. -/
theorem records_after (m : Medium) (h : History) :
    ∃ c : Catalog, c.Sound ∧ m.records (m.after h) = .ok c := by
  rcases m.after_cases h with ⟨c, hc, hfits, hafter⟩ | ⟨hspent, c, hafter⟩
  · rw [hafter]
    exact ⟨c, hc, m.records_holding hc hfits⟩
  · rw [hafter] at hspent ⊢
    exact ⟨.empty, .empty, records_undone hspent⟩

/-- All that can become of a medium through one operation: it does what it does in memory, it leaves
what the medium cannot take, it looks for what the medium cannot look for, or the medium has been
spent before. -/
inductive Course (m : Medium) (on : Occasion) (op : Operation) :
    m.State → Except Failure Answer × m.State → Prop
  | kept {c c' : Catalog} {r : Except Failure Answer} (h : c.Sound) (hfits : c.Fits m.limit)
    (hseeks : m.Seeks op) (h' : c'.Sound) (hfits' : c'.Fits m.limit)
    (heffect : Effect on c op r c') : Course m on op (m.holding c) (r, m.holding c')
  | undone {c : Catalog} (h : c.Sound) (hfits : c.Fits m.limit) (hseeks : m.Seeks op)
    (hover : ¬ (inMemory on op c).2.Fits m.limit) :
    Course m on op (m.holding c) (.error op.unfit, m.undone c)
  | unsought {c : Catalog} {name : Text} (h : c.Sound) (hfits : c.Fits m.limit) (hm : m ≠ .memory)
    (hsought : op.sought? = some name) (hname : name.isWritable = false) :
    Course m on op (m.holding c) (.error (.unwritable name), m.holding c)
  | spent {c : Catalog} {r : Except Failure Answer} (h : m.Spent (m.undone c)) :
    Course m on op (m.undone c) (r, m.undone c)

/-- **One operation after a history.** -/
theorem course (m : Medium) (h : History) (on : Occasion) (op : Operation) :
    m.Course on op (m.after h) (m.step on op (m.after h)) := by
  rcases m.after_cases h with ⟨c, hc, hfits, hafter⟩ | ⟨hspent, c, hafter⟩
  · rw [hafter]
    rcases m.step_holding hc hfits on op with
      ⟨hseeks, hfits', hstep⟩ | ⟨hseeks, hover, hstep⟩ | ⟨hm, name, hsought, hname, hstep⟩
    · rw [hstep]
      exact .kept hc hfits hseeks (leaves_inMemory hc on op).sound hfits'
        (effect_inMemory hc.wellFormed on op)
    · rw [hstep]
      exact .undone hc hfits hseeks hover
    · rw [hstep]
      exact .unsought hc hfits hm hsought hname
  · rw [hafter] at hspent ⊢
    have hstep : m.step on op (m.undone c) =
        ((m.step on op (m.undone c)).1, m.undone c) :=
      Prod.ext rfl (step_undone hspent on op)
    rw [hstep]
    exact .spent hspent

end Medium

end Agenda
