import Agenda.Proofs.Catalog.Sound
import Agenda.Proofs.Identifier
import Agenda.Proofs.Program.Relays
import Agenda.Store.Database

/-!
# Rows and the records they hold

The row of a record that passes its check is loaded as that record, and any other row is refused
(`TaskRow.reads_ofTask`, `ProjectRow.reads_ofProject`).  So the database with the rows of a catalog
(`Database.ofCatalog`) finds what the catalog finds, and selects and sorts what the catalog selects
and sorts (`select_ofCatalog`), unless it refuses a row on the way: `r.Reads c r'` says that what is
read from rows is `r'`, or that `c` holds a record that does not pass its check and `r` is its
refusal.

`Database.records` is the way back: all rows of both tables, loaded.
-/

namespace Agenda

/-- The failure is one that only a database has: it refuses a record that it holds, or it cannot
take what it is given. -/
def Failure.IsObjection (e : Failure) : Prop := e.IsRefusal ∨ e.IsUnfit

/-! ### Loading -/

/-- What is read from the rows of a catalog is what is expected of the catalog, or it is the refusal
of a record that does not pass its check. -/
def Catalog.Reads {α : Type} (c : Catalog) (r expected : Except Failure α) : Prop :=
  r = expected ∨ ¬ c.Valid ∧ ∃ e, e.IsRefusal ∧ r = .error e

namespace Catalog.Reads

variable {α β : Type} {c : Catalog} {r expected : Except Failure α}

theorem refl (c : Catalog) (r : Except Failure α) : c.Reads r r := .inl rfl

/-- Where every record passes its check, nothing is refused. -/
theorem eq (h : c.Reads r expected) (hc : c.Valid) : r = expected :=
  h.resolve_right fun hbad => hbad.1 hc

theorem bind (h : c.Reads r expected) {f g : α → Except Failure β}
    (hf : ∀ a, expected = .ok a → c.Reads (f a) (g a)) :
    c.Reads (r.bind f) (expected.bind g) := by
  rcases h with rfl | ⟨hbad, e, he, rfl⟩
  · cases r with
    | ok a => exact hf a rfl
    | error e => exact refl c _
  · exact .inr ⟨hbad, e, he, rfl⟩

theorem map (h : c.Reads r expected) (f : α → β) : c.Reads (r.map f) (expected.map f) := by
  rcases h with rfl | ⟨hbad, e, he, rfl⟩
  · exact refl c _
  · exact .inr ⟨hbad, e, he, rfl⟩

/-- Rows of records are loaded one after another. -/
theorem mapM {ρ : Type} {row : α → ρ} {load : ρ → Except Failure α} {xs : List α}
    (h : ∀ x ∈ xs, c.Reads (load (row x)) (.ok x)) : c.Reads ((xs.map row).mapM load) (.ok xs) := by
  induction xs with
  | nil => exact refl c _
  | cons x xs ih =>
    rw [List.map_cons, List.mapM_cons]
    refine (h x List.mem_cons_self).bind (g := fun _ => .ok (x :: xs)) fun _ hx => ?_
    cases hx
    refine (ih fun y hy => h y (List.mem_cons_of_mem _ hy)).bind (g := fun _ => .ok (x :: xs))
      fun _ hxs => ?_
    cases hxs
    exact refl c _

end Catalog.Reads

namespace Store

variable {c : Catalog}

theorem loadUuid_text (u : Uuid) : loadUuid u.text = .ok u := by
  rw [loadUuid, Uuid.read?_text]

theorem loadParent_text (parent : Option Uuid) :
    loadParent (parent.map Uuid.text) = .ok parent := by
  cases parent with
  | none => rfl
  | some u =>
    rw [Option.map_some, loadParent, if_neg u.text_ne_empty, loadUuid_text]
    rfl

theorem loadStatus_text (status : Status) : loadStatus status.text = .ok status := by
  rw [loadStatus, Status.ofText?_text]

/-- **Storing loses nothing.**  A task is loaded from its row if it passes its check. -/
theorem TaskRow.load_ofTask (t : Task) : (ofTask t).load =
    if t.errors.isEmpty then .ok t else .error (.refused "Task" t.errors) := by
  simp only [load, ofTask, loadUuid_text, loadParent_text, loadStatus_text]
  rfl

theorem TaskRow.reads_ofTask {t : Task} (ht : t ∈ c.tasks) : c.Reads (ofTask t).load (.ok t) := by
  rw [load_ofTask]
  split
  · exact .refl c _
  · rename_i hbad
    exact .inr ⟨fun hc => hbad (List.isEmpty_iff.2 (hc.tasks t ht)), _, ⟨_, _, rfl⟩, rfl⟩

/-- A row determines its task, whether the task passes its check or not. -/
theorem TaskRow.ofTask_injective : Function.Injective ofTask := by
  rintro ⟨_, _, _, _, status, _, _, _⟩ ⟨_, _, _, _, status', _, _, _⟩ h
  simp only [ofTask, TaskRow.mk.injEq, Uuid.text_inj] at h
  obtain ⟨rfl, rfl, rfl, hparent, hstatus, rfl, rfl, rfl⟩ := h
  obtain rfl := Option.map_injective (fun _ _ => Uuid.text_injective) hparent
  -- a status is read back from its word
  have hread := congrArg Status.ofText? hstatus
  rw [Status.ofText?_text, Status.ofText?_text] at hread
  obtain rfl := Option.some.inj hread
  rfl

theorem ProjectRow.load_ofProject (p : Project) : (ofProject p).load =
    if p.errors.isEmpty then .ok p else .error (.refused "Project" p.errors) := by
  simp only [load, ofProject, loadUuid_text]
  rfl

theorem ProjectRow.reads_ofProject {p : Project} (hp : p ∈ c.projects) :
    c.Reads (ofProject p).load (.ok p) := by
  rw [load_ofProject]
  split
  · exact .refl c _
  · rename_i hbad
    exact .inr ⟨fun hc => hbad (List.isEmpty_iff.2 (hc.projects p hp)), _, ⟨_, _, rfl⟩, rfl⟩

theorem ProjectRow.ofProject_injective : Function.Injective ofProject := by
  rintro ⟨_, _, _⟩ ⟨_, _, _⟩ h
  simp only [ofProject, ProjectRow.mk.injEq, Uuid.text_inj] at h
  obtain ⟨rfl, rfl, rfl⟩ := h
  rfl

end Store

namespace Database

open Store

variable {c : Catalog}

/-- The tables with the rows of a catalog. -/
def ofCatalog (c : Catalog) : Database :=
  ⟨c.projects.map ProjectRow.ofProject, c.tasks.map TaskRow.ofTask⟩

/-- The rows determine the catalog. -/
theorem ofCatalog_injective : Function.Injective ofCatalog := by
  rintro ⟨_, _⟩ ⟨_, _⟩ h
  simp only [ofCatalog, Database.mk.injEq] at h
  obtain rfl := List.map_injective_iff.2 ProjectRow.ofProject_injective h.1
  obtain rfl := List.map_injective_iff.2 TaskRow.ofTask_injective h.2
  rfl

/-- All records of both tables, in the order of the rows. -/
def records (db : Database) : Except Failure Catalog := do
  let projects ← db.projects.mapM ProjectRow.load
  let tasks ← db.tasks.mapM TaskRow.load
  return ⟨projects, tasks⟩

theorem records_ofCatalog (h : c.Valid) : (ofCatalog c).records = .ok c := by
  have hprojects : (c.projects.map ProjectRow.ofProject).mapM ProjectRow.load = .ok c.projects :=
    (Catalog.Reads.mapM fun _ hp => ProjectRow.reads_ofProject hp).eq h
  have htasks : (c.tasks.map TaskRow.ofTask).mapM TaskRow.load = .ok c.tasks :=
    (Catalog.Reads.mapM fun _ ht => TaskRow.reads_ofTask ht).eq h
  rw [records, ofCatalog, hprojects, htasks]
  rfl

/-! ### Finding a row -/

theorem findRow?_ofCatalog (c : Catalog) (id : Uuid) :
    (ofCatalog c).findRow? id = (c.find? id).map TaskRow.ofTask := by
  rw [findRow?, ofCatalog, List.find?_map, Catalog.find?]
  simp only [Function.comp_def, TaskRow.ofTask, Uuid.text_inj]

theorem row_ofCatalog (c : Catalog) (id : Uuid) :
    (ofCatalog c).row id = (c.task id).map TaskRow.ofTask := by
  rw [row, findRow?_ofCatalog, Catalog.task]
  cases c.find? id <;> rfl

theorem load_row_ofCatalog (h : c.UniqueIds) (id : Uuid) :
    c.Reads (((ofCatalog c).row id).bind TaskRow.load) (c.task id) := by
  rw [row_ofCatalog]
  rcases h.task_cases id with ⟨t, ht, -, hreply⟩ | ⟨-, hreply⟩
  · rw [hreply]
    exact TaskRow.reads_ofTask ht
  · rw [hreply]
    exact .refl c _

theorem findProjectRow?_ofCatalog (c : Catalog) (id : Uuid) :
    (ofCatalog c).findProjectRow? id = (c.findProject? id).map ProjectRow.ofProject := by
  rw [findProjectRow?, ofCatalog, List.find?_map, Catalog.findProject?]
  simp only [Function.comp_def, ProjectRow.ofProject, Uuid.text_inj]

/-- There is no looking for a name that cannot be written. -/
theorem projectNamed_unwritable {name : Text} (h : name.isWritable = false) (db : Database) :
    db.projectNamed name = .error (.unwritable name) := by
  rw [projectNamed, h]
  rfl

theorem projectNamed_ofCatalog (c : Catalog) {name : Text} (h : name.isWritable = true) :
    c.Reads ((ofCatalog c).projectNamed name) (.ok (c.projectNamed? name)) := by
  have hrow : (ofCatalog c).projectRowNamed? name =
      (c.projectNamed? name).map ProjectRow.ofProject := by
    rw [projectRowNamed?, ofCatalog, List.find?_map, Catalog.projectNamed?]
    rfl
  rw [projectNamed, h, hrow]
  cases hfind : c.projectNamed? name with
  | none => exact .refl c _
  | some p => exact (ProjectRow.reads_ofProject (List.mem_of_find?_eq_some hfind)).map some

theorem project_ofCatalog (c : Catalog) (id : Uuid) :
    c.Reads (match (ofCatalog c).findProjectRow? id with
      | some r => r.load
      | none => .error (.of (.noProject id)))
      (match c.findProject? id with
      | some p => .ok p
      | none => .error (.of (.noProject id))) := by
  rw [findProjectRow?_ofCatalog]
  cases hfind : c.findProject? id with
  | none => exact .refl c _
  | some p => exact ProjectRow.reads_ofProject (List.mem_of_find?_eq_some hfind)

theorem allProjects_ofCatalog (c : Catalog) :
    c.Reads ((sortOn (·.created.micros) (ofCatalog c).projects).mapM ProjectRow.load)
      (.ok (sortOn (·.created.micros) c.projects)) := by
  rw [ofCatalog, sortOn_map]
  exact .mapM fun p hp => ProjectRow.reads_ofProject (mem_sortOn.1 hp)

/-! ### Selecting rows -/

/-- Rows are selected and sorted as the tasks of the catalog are, and then they are loaded. -/
theorem select_eq (c : Catalog) {key : TaskRow → Int} {test : TaskRow → Bool}
    {key' : Task → Int} {test' : Task → Bool} (hkey : ∀ t, key (.ofTask t) = key' t)
    (htest : ∀ t, test (.ofTask t) = test' t) :
    (ofCatalog c).select key test =
      ((sortOn key' (c.tasks.filter test')).map TaskRow.ofTask).mapM TaskRow.load := by
  have hfilter : (c.tasks.map TaskRow.ofTask).filter test =
      (c.tasks.filter test').map TaskRow.ofTask := by
    rw [List.filter_map]
    exact congrArg _ (List.filter_congr fun t _ => htest t)
  rw [select, ofCatalog, hfilter, sortOn_map]
  simp only [hkey]

theorem select_ofCatalog (c : Catalog) {key : TaskRow → Int} {test : TaskRow → Bool}
    {key' : Task → Int} {test' : Task → Bool} (hkey : ∀ t, key (.ofTask t) = key' t)
    (htest : ∀ t, test (.ofTask t) = test' t) :
    c.Reads ((ofCatalog c).select key test) (.ok (sortOn key' (c.tasks.filter test'))) := by
  rw [select_eq c hkey htest]
  exact .mapM fun t ht => TaskRow.reads_ofTask (List.mem_filter.1 (mem_sortOn.1 ht)).1

/-- The children of a task are loaded from their rows, in ascending order. -/
theorem children_eq (c : Catalog) (id : Uuid) :
    (ofCatalog c).children id =
      ((c.children id).map TaskRow.ofTask).mapM TaskRow.load := by
  refine select_eq c (fun _ => rfl) fun t => ?_
  rw [Bool.eq_iff_iff]
  cases hp : t.parent with
  | none => simp [TaskRow.ofTask, hp]
  | some u => simp [TaskRow.ofTask, hp, Uuid.text_inj]

theorem children_ofCatalog (c : Catalog) (id : Uuid) :
    c.Reads ((ofCatalog c).children id) (.ok (c.children id)) := by
  rw [children_eq]
  exact .mapM fun t ht => TaskRow.reads_ofTask (mem_childrenIn.1 ht).1

theorem roots_ofCatalog (c : Catalog) (project : Uuid) :
    c.Reads ((ofCatalog c).select (·.order) fun r => r.project = project.text && r.parent.isNone)
      (.ok (c.roots project)) := by
  refine select_ofCatalog c (fun _ => rfl) fun t => ?_
  simp [TaskRow.ofTask, Uuid.text_inj]

theorem tasksOf_ofCatalog (c : Catalog) (project : Uuid) :
    c.Reads ((ofCatalog c).select (·.created.micros) (·.project = project.text))
      (.ok (c.tasksOf project)) := by
  refine select_ofCatalog c (fun _ => rfl) fun t => ?_
  simp [TaskRow.ofTask, Uuid.text_inj]

/-- To select by status before sorting is to pick from the sorted tasks. -/
theorem tasksWith_ofCatalog (c : Catalog) (project : Uuid) (status : Status) :
    c.Reads ((ofCatalog c).select (·.created.micros) fun r =>
      r.project = project.text && r.status = status.text)
      (.ok ((c.tasksOf project).filter (·.status = status))) := by
  have hstatus (s : Status) : s.text = status.text ↔ s = status := by
    cases s <;> cases status <;> decide
  -- sorting keeps ties in their order, so picking and sorting can change places
  rw [Catalog.tasksOf, Catalog.byAge, ← sortOn_filter, List.filter_filter]
  refine select_ofCatalog c (fun _ => rfl) fun t => ?_
  rw [Bool.and_comm]
  simp [TaskRow.ofTask, Uuid.text_inj, hstatus]

theorem allTasks_ofCatalog (c : Catalog) :
    c.Reads ((ofCatalog c).select (·.created.micros) fun _ => true)
      (.ok (Catalog.byAge c.tasks)) := by
  have hall : c.tasks.filter (fun _ => true) = c.tasks := List.filter_eq_self.2 fun _ _ => rfl
  rw [Catalog.byAge, ← hall]
  exact select_ofCatalog c (fun _ => rfl) fun _ => rfl

/-- **The tasks below a task.**  The walk with a stack of loaded tasks lists each task of the stack
followed by what is below it. -/
theorem descendants_go_ofCatalog (h : c.Forest) (n : Nat) (stack : List Task)
    (hn : (stack.flatMap fun t => t :: h.acyclic.preorder t.id).length ≤ n) :
    c.Reads (descendants.go (ofCatalog c) n stack)
      (.ok (stack.flatMap fun t => t :: h.acyclic.preorder t.id)) := by
  -- as in the catalog, but this walk starts with the children and never meets the start
  induction n generalizing stack with
  | zero =>
    cases stack with
    | nil => exact .refl c _
    | cons t stack =>
      rw [List.flatMap_cons, List.cons_append, List.length_cons] at hn
      omega
  | succ n ih =>
    cases stack with
    | nil => exact .refl c _
    | cons t stack =>
      have hstack : ((c.children t.id ++ stack).flatMap fun t => t :: h.acyclic.preorder t.id) =
          h.acyclic.preorder t.id ++ stack.flatMap fun t => t :: h.acyclic.preorder t.id := by
        rw [List.flatMap_append, Catalog.children, ← h.acyclic.preorder_eq]
      rw [List.flatMap_cons, List.cons_append, List.length_cons, ← hstack] at hn
      have hrest := ih (c.children t.id ++ stack) (by omega)
      rw [List.flatMap_cons, List.cons_append, ← hstack, descendants.go]
      refine (children_ofCatalog c t.id).bind (g := fun below => .ok (t :: _))
        fun below hbelow => ?_
      cases hbelow
      exact hrest.map (t :: ·)

theorem descendants_ofCatalog (h : c.Forest) {t : Task} (ht : t ∈ c.tasks) :
    c.Reads ((ofCatalog c).descendants t.id) (.ok (c.descendants t.id)) := by
  have hlen := h.acyclic.length_preorder_lt h.ids ht
  have hpre : (c.children t.id).flatMap (fun t => t :: h.acyclic.preorder t.id) =
      h.acyclic.preorder t.id := by
    rw [Catalog.children, ← h.acyclic.preorder_eq]
  have hsize : (ofCatalog c).tasks.length = c.tasks.length := List.length_map _
  rw [descendants, Catalog.descendants_eq_preorder h.ids h.acyclic ht, ← hpre]
  refine (children_ofCatalog c t.id).bind (g := fun top => .ok (top.flatMap _)) fun top htop => ?_
  cases htop
  exact descendants_go_ofCatalog h _ _ (by rw [hpre, hsize]; omega)

end Database

end Agenda
