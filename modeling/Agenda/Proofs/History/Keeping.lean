import Agenda.Proofs.Draft
import Agenda.Proofs.History.Media

/-!
# Storing and reading back

A task comes with the tasks below it, but only the task itself is stored: in memory as it is, in a
database as a row, whose texts are read and checked again whenever the task is asked for.

**Nothing is lost on the way** (`Tree.put_exact`).  What a draft is read as passes the check for
stored records, and what passes this check is kept by every medium that does not have its identifier
yet and has room for its order.  `Medium.Kept` says what that means: the task is read back with
every field as it was and with nothing below it, everything else is read as before, and the
identifier is taken from then on.

A medium that has stored a task is the medium with one more record (`Medium.withTask`), so what is
read from it is a matter of finding records (`task_withTask_self`, `task_withTask_of_ne`).  In the
tables, records are found by the written forms of their identifiers, and no two identifiers are
written alike.
-/

namespace Agenda

open Program Store

variable {α : Type} {now : Instant} {id : Uuid} {t : Task}

/-! ### One record more -/

section Search

variable {p : α → Bool} {xs : List α} {x : α}

/-- The last of a list is found if it is the only one that passes a test. -/
theorem find?_concat_of_forall_not (h : ∀ y ∈ xs, ¬ p y = true) (hx : p x = true) :
    (xs ++ [x]).find? p = some x := by
  rw [List.find?_append, List.find?_eq_none.2 h, Option.none_or, List.find?_singleton, if_pos hx]

/-- What does not pass a test can be left out of the search. -/
theorem find?_concat_of_not (hx : ¬ p x = true) : (xs ++ [x]).find? p = xs.find? p := by
  rw [List.find?_append, List.find?_singleton, if_neg hx, Option.or_none]

end Search

namespace Catalog

variable {c : Catalog}

theorem task_withTask_self (h : ∀ s ∈ c.tasks, s.id ≠ t.id) :
    (c.withTask t).task t.id = .ok t := by
  have hfind : (c.withTask t).find? t.id = some t := by
    refine find?_concat_of_forall_not (fun s hs => ?_) (decide_eq_true rfl)
    rw [decide_eq_true_eq]
    exact h s hs
  rw [task, hfind]

theorem task_withTask_of_ne (h : id ≠ t.id) (c : Catalog) : (c.withTask t).task id = c.task id := by
  have hfind : (c.withTask t).find? id = c.find? id := by
    refine find?_concat_of_not ?_
    rw [decide_eq_true_eq]
    exact h.symm
  rw [task, task, hfind]

end Catalog

/-! ### Rows -/

/-- A task that passes its check is loaded from its row. -/
theorem Store.TaskRow.load_ofTask_of_pass (h : t.errors = []) : (ofTask t).load = .ok t := by
  rw [load_ofTask, h]
  rfl

/-- Two steps do not fail in some way if neither of them does. -/
theorem bind_ne_error {α β : Type} {first : Except Failure α} {f : α → Except Failure β}
    {e : Failure} (h : first ≠ .error e) (hf : ∀ a, f a ≠ .error e) : first >>= f ≠ .error e := by
  cases first with
  | error e' => exact fun he => h (congrArg Except.error (Except.error.inj he))
  | ok a => exact hf a

theorem Store.loadUuid_ne_overflow (s : String) : loadUuid s ≠ .error .overflow := by
  unfold loadUuid
  split <;> rintro ⟨⟩

/-- A row may be refused, but loading it never meets a number that does not fit. -/
theorem Store.TaskRow.load_ne_overflow (r : TaskRow) : r.load ≠ .error .overflow := by
  refine bind_ne_error (loadUuid_ne_overflow _) fun id => ?_
  refine bind_ne_error (loadUuid_ne_overflow _) fun project => ?_
  refine bind_ne_error ?_ fun parent => bind_ne_error ?_ fun status => ?_
  · unfold loadParent
    split
    · rintro ⟨⟩
    · split
      · rintro ⟨⟩
      · exact bind_ne_error (loadUuid_ne_overflow _) fun u => by rintro ⟨⟩
  · unfold loadStatus
    split <;> rintro ⟨⟩
  · dsimp only
    split <;> rintro ⟨⟩

namespace Database

variable {db : Database}

/-- No row has the written form of an identifier. -/
def Lacks (db : Database) (id : Uuid) : Prop := ∀ r ∈ db.tasks, r.id ≠ id.text

/-- The tables with the row of one more task. -/
def withTask (t : Task) (db : Database) : Database := { db with tasks := db.tasks ++ [.ofTask t] }

/-- The task with an identifier, loaded from its row. -/
def task (db : Database) (id : Uuid) : Except Failure Task := (db.row id).bind TaskRow.load

theorem findRow?_eq_none_iff : db.findRow? id = none ↔ db.Lacks id := by
  simp [findRow?, Lacks]

theorem not_lacks_withTask (t : Task) (db : Database) : ¬ (db.withTask t).Lacks t.id :=
  fun h => h (.ofTask t) (List.mem_append_right _ List.mem_cons_self) rfl

theorem addTask_of_lacks (h : db.Lacks t.id) (hpass : t.errors = [])
    (hfits : fitsColumn t.order = true) : db.addTask t = (.ok (), db.withTask t) := by
  have hname := (NameRule.refusal?_eq_none_iff.1 (Task.errors_eq_nil.1 hpass).1).1
  rw [addTask, findRow?_eq_none_iff.2 h, Option.isSome_none, if_neg Bool.false_ne_true, hname,
    Bool.not_true, if_neg Bool.false_ne_true, if_pos hfits]
  rfl

theorem addTask_of_not_lacks (h : ¬ db.Lacks t.id) :
    db.addTask t = (.error (.of (.taskExists t.id)), db) := by
  have hsome : (db.findRow? t.id).isSome := by
    rw [Option.isSome_iff_ne_none]
    exact fun hnone => h (findRow?_eq_none_iff.1 hnone)
  rw [addTask, if_pos hsome]

/-- The new row is loaded. -/
theorem task_withTask_self (hpass : t.errors = []) (h : db.Lacks t.id) :
    (db.withTask t).task t.id = .ok t := by
  have hfind : (db.withTask t).findRow? t.id = some (.ofTask t) := by
    refine find?_concat_of_forall_not (fun r hr => ?_) (decide_eq_true rfl)
    rw [decide_eq_true_eq]
    exact h r hr
  rw [task, row, hfind]
  exact TaskRow.load_ofTask_of_pass hpass

/-- Another identifier is written differently, so it finds what it has found before. -/
theorem task_withTask_of_ne (h : id ≠ t.id) (db : Database) :
    (db.withTask t).task id = db.task id := by
  have hfind : (db.withTask t).findRow? id = db.findRow? id := by
    refine find?_concat_of_not ?_
    rw [decide_eq_true_eq]
    exact fun htext => h (Uuid.text_injective htext).symm
  rw [task, task, row, row, hfind]

theorem task_ne_overflow (db : Database) (id : Uuid) : db.task id ≠ .error .overflow := by
  refine bind_ne_error ?_ TaskRow.load_ne_overflow
  unfold row
  split <;> rintro ⟨⟩

/-- All rows are read as before, and then the new one. -/
theorem records_withTask (h : t.errors = []) (db : Database) :
    (db.withTask t).records = db.records.map (Catalog.withTask t) := by
  have htasks : (db.tasks ++ [TaskRow.ofTask t]).mapM TaskRow.load =
      (db.tasks.mapM TaskRow.load).map (· ++ [t]) := by
    rw [List.mapM_append, List.mapM_cons, TaskRow.load_ofTask_of_pass h]
    cases db.tasks.mapM TaskRow.load <;> rfl
  rw [records, records, withTask, htasks]
  cases db.projects.mapM ProjectRow.load with
  | error e => rfl
  | ok projects => cases db.tasks.mapM TaskRow.load <;> rfl

end Database

/-! ### Programs on all media -/

/-- A task is read alone in one request. -/
theorem Tasks.outcome_read_alone {σ : Type} [Backend σ] (now : Instant) (id : Uuid) (s : σ) :
    (Tasks.read id false).outcome now s =
      ((Backend.answer now (.task id) s).1.map .leaf, (Backend.answer now (.task id) s).2) :=
  outcome_map Tree.leaf (ask (.task id))

theorem Session.outcome_read_alone (now : Instant) (id : Uuid) (opened db : Database) :
    (Tasks.read id false).outcome now (⟨opened, db, false⟩ : Session) =
      ((db.task id).map .leaf, ⟨opened, db, false⟩) := by
  have hanswer : Database.answer now (.task id) db = (db.task id, db) := rfl
  rw [Tasks.outcome_read_alone, Session.answer_open opened hanswer
    (Session.breaksOff_of_isRead trivial (db.task_ne_overflow id))]

theorem Session.outcome_put_of_lacks {db : Database} {t : Tree} (h : db.Lacks t.task.id)
    (hpass : t.task.errors = []) (hfits : fitsColumn t.task.order = true) (now : Instant)
    (opened : Database) :
    (Tasks.put t).outcome now (⟨opened, db, false⟩ : Session) =
      (.ok (), ⟨opened, db.withTask t.task, false⟩) := by
  have hanswer : Database.answer now (.addTask t.task) db = (.ok (), db.withTask t.task) :=
    Database.addTask_of_lacks h hpass hfits
  exact Session.answer_open opened hanswer rfl

theorem Session.outcome_put_of_not_lacks {db : Database} {t : Tree} (h : ¬ db.Lacks t.task.id)
    (now : Instant) (opened : Database) :
    (Tasks.put t).outcome now (⟨opened, db, false⟩ : Session) =
      (.error (.of (.taskExists t.task.id)), ⟨opened, db, false⟩) := by
  have hanswer : Database.answer now (.addTask t.task) db =
      (.error (.of (.taskExists t.task.id)), db) := Database.addTask_of_not_lacks h
  exact Session.answer_open opened hanswer rfl

namespace Medium

variable {m : Medium} {s : m.State}

/-- What a program comes to on a medium. -/
def outcome (now : Instant) (p : Program α) : (m : Medium) → m.State → Except Failure α × m.State
  | .memory, c => @Program.outcome Catalog α _ now p c
  | .database, db =>
    ((db.inSession (Session.Work.ofProgram now p)).result,
      (db.inSession (Session.Work.ofProgram now p)).store)
  | .session, s => @Program.outcome Session α _ now p s

/-- The task with an identifier, as a medium has it. -/
def task (id : Uuid) : (m : Medium) → m.State → Except Failure Task
  | .memory, c => Catalog.task c id
  | .database, db => Database.task db id
  | .session, s => s.current.task id

/-- A medium has no task with an identifier. -/
def Lacks (id : Uuid) : (m : Medium) → m.State → Prop
  | .memory, c => ∀ s ∈ c.tasks, s.id ≠ id
  | .database, db => Database.Lacks db id
  | .session, s => s.current.Lacks id

/-- A medium with one more task. -/
def withTask (t : Task) : (m : Medium) → m.State → m.State
  | .memory, c => Catalog.withTask t c
  | .database, db => Database.withTask t db
  | .session, s => { s with current := s.current.withTask t }

/-- A program does in a session of its own what it does in the session, unless it fails there after
a write. -/
theorem outcome_database {p : Program α} {db db' : Database} {r : Except Failure α}
    (h : p.outcome now (Session.start db) = (r, ⟨db, db', false⟩))
    (hkept : (∃ a, r = .ok a) ∨ db' = db) : database.outcome now p db = (r, db') := by
  have hresult : (db.inSession (Session.Work.ofProgram now p)).result = r :=
    (Database.inSession_result _ _).trans (congrArg Prod.fst h)
  refine Prod.ext hresult ?_
  show (db.inSession (Session.Work.ofProgram now p)).store = db'
  cases r with
  | ok a =>
    have hok : (Session.Work.ofProgram now p (Session.start db)).result = .ok a :=
      congrArg Prod.fst h
    rw [Database.inSession_store hok]
    exact congrArg (fun ran => ran.2.current) h
  | error e =>
    rw [Database.inSession_of_error hresult, hkept.resolve_left]
    rintro ⟨a, ⟨⟩⟩

/-! ### Reading -/

/-- A task that is read alone is the one that the medium has, with nothing below it. -/
theorem outcome_read_alone (h : ¬ m.Spent s) (now : Instant) (id : Uuid) :
    m.outcome now (Tasks.read id false) s = ((m.task id s).map .leaf, s) := by
  cases m with
  | memory => exact @Tasks.outcome_read_alone Catalog _ now id s
  | database => exact outcome_database (Session.outcome_read_alone now id s s) (.inr rfl)
  | session =>
    obtain ⟨opened, db, spent⟩ := s
    obtain rfl : spent = false := Bool.eq_false_iff.2 h
    exact Session.outcome_read_alone now id opened db

theorem not_spent_withTask (h : ¬ m.Spent s) (t : Task) : ¬ m.Spent (m.withTask t s) := by
  cases m <;> exact h

theorem not_lacks_withTask (m : Medium) (t : Task) (s : m.State) :
    ¬ m.Lacks t.id (m.withTask t s) := by
  cases m with
  | memory =>
    intro h
    exact h t (List.mem_append_right _ List.mem_cons_self) rfl
  | database => exact Database.not_lacks_withTask t s
  | session => exact Database.not_lacks_withTask t s.current

/-- The new task is found as it was stored. -/
theorem task_withTask_self (hpass : t.errors = []) (h : m.Lacks t.id s) :
    m.task t.id (m.withTask t s) = .ok t := by
  cases m with
  | memory => exact Catalog.task_withTask_self h
  | database => exact Database.task_withTask_self hpass h
  | session => exact Database.task_withTask_self hpass h

/-- What else is found is what was found before. -/
theorem task_withTask_of_ne (h : id ≠ t.id) (m : Medium) (s : m.State) :
    m.task id (m.withTask t s) = m.task id s := by
  cases m with
  | memory => exact Catalog.task_withTask_of_ne h s
  | database => exact Database.task_withTask_of_ne h s
  | session => exact Database.task_withTask_of_ne h s.current

theorem records_withTask (hpass : t.errors = []) (m : Medium) (s : m.State) :
    m.records (m.withTask t s) = (m.records s).map (Catalog.withTask t) := by
  cases m with
  | memory => rfl
  | database => exact Database.records_withTask hpass s
  | session => exact Database.records_withTask hpass s.current

/-! ### Storing -/

/-- A medium that lacks a task takes it, if its order fits. -/
theorem outcome_put_of_lacks {t : Tree} (hspent : ¬ m.Spent s) (hpass : t.task.errors = [])
    (hfits : ∀ B ∈ m.limit, t.task.order < B) (h : m.Lacks t.task.id s) (now : Instant) :
    m.outcome now (Tasks.put t) s = (.ok (), m.withTask t.task s) := by
  have hcolumn (hlimit : m.limit = columnLimit) : fitsColumn t.task.order = true := by
    have hlow := (Task.errors_eq_nil.1 hpass).2
    have hhigh := hfits _ hlimit
    rw [fitsColumn, Bool.and_eq_true, decide_eq_true_eq, decide_eq_true_eq]
    omega
  cases m with
  | memory => exact Catalog.addTask_of_notMem h
  | database =>
    exact outcome_database (Session.outcome_put_of_lacks h hpass (hcolumn rfl) now s)
      (.inl ⟨(), rfl⟩)
  | session =>
    obtain ⟨opened, db, spent⟩ := s
    obtain rfl : spent = false := Bool.eq_false_iff.2 hspent
    exact Session.outcome_put_of_lacks h hpass (hcolumn rfl) now opened

/-- A medium that has a task refuses another one with its identifier. -/
theorem outcome_put_of_not_lacks {t : Tree} (hspent : ¬ m.Spent s) (h : ¬ m.Lacks t.task.id s)
    (now : Instant) :
    m.outcome now (Tasks.put t) s = (.error (.of (.taskExists t.task.id)), s) := by
  cases m with
  | memory =>
    simp only [Lacks, not_forall, not_not] at h
    obtain ⟨u, hu, hid⟩ := h
    exact Catalog.addTask_of_mem ⟨u, hu, hid⟩
  | database => exact outcome_database (Session.outcome_put_of_not_lacks h now s) (.inr rfl)
  | session =>
    obtain ⟨opened, db, spent⟩ := s
    obtain rfl : spent = false := Bool.eq_false_iff.2 hspent
    exact Session.outcome_put_of_not_lacks h now opened

/-- Nothing of a task is lost by storing it, which takes a medium from `s` to `s'`. -/
structure Kept (m : Medium) (t : Tree) (s s' : m.State) : Prop where
  /-- The task is stored. -/
  stored : ∀ now, m.outcome now (Tasks.put t) s = (.ok (), s')
  /-- It is read back as it was, with nothing below it. -/
  back : ∀ now, m.outcome now (Tasks.read t.task.id false) s' = (.ok (.leaf t.task), s')
  /-- Any other identifier is answered as before. -/
  others : ∀ now id, id ≠ t.task.id → ∃ r, m.outcome now (Tasks.read id false) s = (r, s) ∧
    m.outcome now (Tasks.read id false) s' = (r, s')
  /-- All records are read as before, and then the new one. -/
  records : m.records s' = (m.records s).map (Catalog.withTask t.task)
  /-- No other task can be stored under its identifier. -/
  taken : ∀ now (u : Tree), u.task.id = t.task.id →
    m.outcome now (Tasks.put u) s' = (.error (.of (.taskExists t.task.id)), s')

end Medium

/-- **Storing loses nothing.**  What a draft is read as passes the check for stored records; a task
that passes it is loaded from its row; and any medium that is not spent, lacks its identifier and
has room for its order keeps it. -/
theorem Tree.put_exact (t : Tree) :
    (∀ on d, Draft.readTree on d = .ok t → t.task.errors = []) ∧
    (t.task.errors = [] →
      (TaskRow.ofTask t.task).load = .ok t.task ∧
      ∀ (m : Medium) (s : m.State), (∀ B ∈ m.limit, t.task.order < B) → ¬ m.Spent s →
        m.Lacks t.task.id s → m.Kept t s (m.withTask t.task s)) := by
  refine ⟨fun on d hread => Draft.readTree_pass hread t.task ?_, fun hpass =>
    ⟨TaskRow.load_ofTask_of_pass hpass, fun m s hfits hspent hlacks => ?_⟩⟩
  · cases t
    rw [flatten]
    exact List.mem_cons_self
  · have hspent' := Medium.not_spent_withTask hspent t.task
    exact {
      stored := Medium.outcome_put_of_lacks hspent hpass hfits hlacks
      back := by
        intro now
        rw [Medium.outcome_read_alone hspent', Medium.task_withTask_self hpass hlacks]
        rfl
      others := by
        intro now id hid
        have hsame := m.outcome_read_alone hspent' now id
        rw [Medium.task_withTask_of_ne hid] at hsame
        exact ⟨_, m.outcome_read_alone hspent now id, hsame⟩
      records := m.records_withTask hpass s
      taken := by
        intro now u hid
        have hnot := m.not_lacks_withTask t.task s
        rw [← hid] at hnot ⊢
        exact Medium.outcome_put_of_not_lacks hspent' hnot now }

/-- What somebody has filled in: the identifier in another form, a name that looks like a line of an
outline, the identifier of zeros as the parent, the largest order that fits, the first and the last
instants of the calendar, and a subtask in another project. -/
def parcelDraft : Draft :=
  [("id", .plain (.text "\x7b123E4567-E89B-12D3-A456-426614174001\x7d")),
    ("name", .plain (.text "Post\n[x] 1. the parcel (now)")), ("project_id", .id ⟨1#128⟩),
    ("parent_task_id", .id ⟨0#128⟩), ("status", .plain (.text "completed")),
    ("order", .plain (.whole 9223372036854775807)), ("created_at", .plain (.text "0001-01-01")),
    ("updated_at", .plain (.text "9999-12-31T23:59:59.999999")),
    ("subtasks", .list
      [.record [("name", .plain (.text "Stamp it")), ("project_id", .id ⟨2#128⟩)]])]

def parcel : Tree :=
  .node ⟨⟨0x123e4567e89b12d3a456426614174001#128⟩, "Post\n[x] 1. the parcel (now)", ⟨1#128⟩,
      some ⟨0#128⟩, .completed, 9223372036854775807, ⟨-62135596800000000⟩,
      ⟨253402300799999999⟩⟩
    [.leaf ⟨⟨3#128⟩, "Stamp it", ⟨2#128⟩, none, .pending, 0, ⟨4⟩, ⟨4⟩⟩]

/-- Tables with a row that no task can be loaded from. -/
def attic : Database where
  projects := []
  tasks := [⟨"lost", " ", "nowhere", some "", "late", -1, ⟨0⟩, ⟨0⟩⟩]

/-- The parcel is kept, on every medium and beside a row that is refused. -/
theorem Tree.put_exact_parcel :
    Draft.readTree ⟨⟨4⟩, ⟨3#128⟩⟩ parcelDraft = .ok parcel ∧ parcel.task.errors = [] ∧
      (∀ (m : Medium), ∀ B ∈ m.limit, parcel.task.order < B) ∧ attic.Lacks parcel.task.id ∧
      Medium.database.Kept parcel attic (attic.withTask parcel.task) ∧
      Medium.session.Kept parcel (Session.start attic)
        ⟨attic, attic.withTask parcel.task, false⟩ ∧
      Medium.memory.Kept parcel Catalog.empty (Catalog.empty.withTask parcel.task) := by
  have hread : Draft.readTree ⟨⟨4⟩, ⟨3#128⟩⟩ parcelDraft = .ok parcel := by rfl
  have hpass := parcel.put_exact.1 _ _ hread
  have hfits : ∀ (m : Medium), ∀ B ∈ m.limit, parcel.task.order < B := by
    intro m B hB
    cases m with
    | memory => cases hB
    | database | session =>
      cases hB
      decide
  have hlacks : attic.Lacks parcel.task.id := by
    unfold Database.Lacks
    decide
  have hkept := (parcel.put_exact.2 hpass).2
  exact ⟨hread, hpass, hfits, hlacks, hkept .database attic (hfits _) id hlacks,
    hkept .session (Session.start attic) (hfits _) Bool.false_ne_true hlacks,
    hkept .memory Catalog.empty (hfits _) id fun s hs => nomatch hs⟩

end Agenda
