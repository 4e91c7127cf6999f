import Agenda.Proofs.Database.Rows
import Agenda.Proofs.Operation.Reading

/-!
# The database answers as the catalog does

To a request that the catalog answers, the database with the rows of that catalog gives the same
answer, and it holds the rows of the new catalog afterwards (`answer_ofCatalog`).  There are three
exceptions: a number may not fit its column, a record that does not pass its check may be refused,
and a name may not be writable.  In tidy catalogs every record passes, so its name can be written,
and the numbers fit as long as the orders are below `2 ^ 63` (`Overflows.lt`); what is left is the
look for a project by a name that no project can have.
-/

namespace Agenda

/-- The order of the row fits its column, and the name can be written. -/
def Store.TaskRow.Fits (r : TaskRow) : Prop :=
  fitsColumn r.order = true ∧ r.name.isWritable = true

namespace Database

open Store

variable {B : Nat} {c : Catalog} {now : Instant}

/-- Some order of the catalog does not fit its column. -/
def Overflows (c : Catalog) : Prop := ∃ t ∈ c.tasks, ¬ fitsColumn t.order = true

/-- Orders that are not negative do not fit if they are as large as `2 ^ 63`. -/
theorem Overflows.lt (h : Overflows c) (htidy : c.Tidy B) : 9223372036854775808 < B := by
  obtain ⟨t, ht, hbig⟩ := h
  have hlow := (Task.errors_eq_nil.1 (htidy.tasks t ht)).2
  have hhigh := htidy.orders t ht
  rw [fitsColumn, Bool.and_eq_true, decide_eq_true_eq, decide_eq_true_eq] at hbig
  omega

/-! ### Rows that fit -/

/-- All rows of tasks are such as the database can take. -/
def Fits (db : Database) : Prop := ∀ r ∈ db.tasks, r.Fits

namespace Fits

variable {db : Database}

theorem modify (h : db.Fits) (id : Uuid) {f : TaskRow → TaskRow}
    (hf : ∀ r : TaskRow, r.Fits → (f r).Fits) : (db.modify id f).Fits := by
  intro r' hr'
  obtain ⟨r, hr, rfl⟩ := List.mem_map.1 hr'
  split
  · exact hf r (h r hr)
  · exact h r hr

theorem change (h : db.Fits) (id : Uuid) {f : TaskRow → TaskRow}
    (hf : ∀ r : TaskRow, r.Fits → (f r).Fits) : (db.change id f).2.Fits := by
  unfold Database.change
  split
  · exact h.modify id hf
  · exact h

theorem addTask (h : db.Fits) (t : Task) : (db.addTask t).2.Fits := by
  unfold Database.addTask
  split
  · exact h
  split
  · exact h
  split
  · rename_i hname hfits
    rw [Bool.not_eq_true', Bool.not_eq_false] at hname
    intro r hr
    rcases List.mem_append.1 hr with hr | hr
    · exact h r hr
    · rw [List.mem_singleton.1 hr]
      exact ⟨hfits, hname⟩
  · exact h

theorem rename (h : db.Fits) (now : Instant) (id : Uuid) (name : Text) :
    (db.rename now id name).2.Fits := by
  unfold Database.rename
  split
  · exact h
  · rename_i hname
    cases hfound : (db.findRow? id).isSome with
    | true =>
      rw [hfound, Bool.true_and, Bool.not_eq_true', Bool.not_eq_false] at hname
      exact h.change id fun r hr => ⟨hr.1, hname⟩
    | false =>
      -- there is no row to change
      have hnone : db.findRow? id = none := by simpa using hfound
      simp only [Database.change, row, hnone]
      exact h

/-- Giving places to tasks leaves their names. -/
theorem exists_name_eq_of_mem_foldl_modify {orders : List (Uuid × Int)} {now : Instant}
    {r : TaskRow} (hr : r ∈ (orders.foldl (fun db (id, order) =>
      db.modify id fun r => { r with order := order, updated := now }) db).tasks) :
    ∃ s ∈ db.tasks, r.name = s.name := by
  induction orders generalizing db with
  | nil => exact ⟨r, hr, rfl⟩
  | cons o orders ih =>
    obtain ⟨s, hs, hname⟩ := ih hr
    obtain ⟨q, hq, rfl⟩ := List.mem_map.1 hs
    refine ⟨q, hq, hname.trans ?_⟩
    split <;> rfl

theorem setOrders (h : db.Fits) (now : Instant) (orders : List (Uuid × Int)) :
    (db.setOrders now orders).2.Fits := by
  unfold Database.setOrders
  split
  · exact h
  · dsimp only
    split
    · rename_i hfits
      rw [List.all_eq_true] at hfits
      refine fun r hr => ⟨hfits r hr, ?_⟩
      -- the places change, the names stay
      obtain ⟨s, hs, hname⟩ := exists_name_eq_of_mem_foldl_modify hr
      rw [hname]
      exact (h s hs).2
    · exact h

theorem remove (h : db.Fits) (id : Uuid) : (db.remove id).2.Fits := by
  unfold Database.remove
  split
  · exact h
  · split
    · exact h
    · exact fun r hr => h r (List.mem_filter.1 hr).1

theorem addProject (h : db.Fits) (p : Project) : (db.addProject p).2.Fits := by
  unfold Database.addProject
  split
  · exact h
  · split <;> exact h

end Fits

/-- No request leaves a row that does not fit. -/
theorem answer_fits (now : Instant) (request : Call) {db : Database} (h : db.Fits) :
    (Database.answer now request db).2.Fits := by
  cases request with
  | addTask t => exact h.addTask t
  | setOrders orders => exact h.setOrders now orders
  | rename id name => exact h.rename now id name
  | setStatus id status => exact h.change id fun _ hr => hr
  | remove id => exact h.remove id
  | addProject p => exact h.addProject p
  | task | children | descendants | roots | tasksOf | tasksWith | allTasks | project
  | projectNamed | allProjects => exact h

/-! ### Writes -/

theorem modify_ofCatalog (id : Uuid) {f : Task → Task} {g : TaskRow → TaskRow}
    (hf : ∀ t, g (.ofTask t) = .ofTask (f t)) (c : Catalog) :
    (ofCatalog c).modify id g = ofCatalog (c.modify id f) := by
  have hmap : (c.tasks.map TaskRow.ofTask).map (fun r => if r.id = id.text then g r else r) =
      (c.tasks.map fun t => if t.id = id then f t else t).map TaskRow.ofTask := by
    rw [List.map_map, List.map_map]
    refine List.map_congr_left fun t _ => ?_
    by_cases hid : t.id = id
    · have htext : (TaskRow.ofTask t).id = id.text := congrArg Uuid.text hid
      rw [Function.comp_apply, Function.comp_apply, if_pos htext, if_pos hid, hf]
    · have htext : (TaskRow.ofTask t).id ≠ id.text := fun he => hid (Uuid.text_injective he)
      rw [Function.comp_apply, Function.comp_apply, if_neg htext, if_neg hid]
  rw [modify, ofCatalog, hmap]
  rfl

theorem change_ofCatalog (id : Uuid) {f : Task → Task} {g : TaskRow → TaskRow}
    (hf : ∀ t, g (.ofTask t) = .ofTask (f t)) (c : Catalog) :
    (ofCatalog c).change id g =
      ((c.change id f).1.map TaskRow.ofTask, ofCatalog (c.change id f).2) := by
  rw [change, row_ofCatalog, Catalog.change]
  cases c.task id with
  | ok t =>
    rw [← modify_ofCatalog id hf c]
    simp only [Except.map, hf]
  | error e => rfl

theorem foldl_modify_ofCatalog (orders : List (Uuid × Int)) (c : Catalog) :
    orders.foldl (fun db (id, order) =>
        db.modify id fun r => { r with order := order, updated := now }) (ofCatalog c) =
      ofCatalog (orders.foldl (fun c (id, order) =>
        c.modify id fun t => { t with order := order, updated := now }) c) := by
  induction orders generalizing c with
  | nil => rfl
  | cons o orders ih =>
    obtain ⟨id, order⟩ := o
    have hmodify := modify_ofCatalog id
      (f := fun t => { t with order := order, updated := now })
      (g := fun r => { r with order := order, updated := now }) (fun _ => rfl) c
    rw [List.foldl_cons, List.foldl_cons, ← ih]
    dsimp only
    rw [hmodify]

theorem firstMissing?_ofCatalog (c : Catalog) (ids : List Uuid) :
    (ofCatalog c).firstMissing? ids = c.firstMissing? ids := by
  simp only [firstMissing?, Catalog.firstMissing?, findRow?_ofCatalog, Option.isNone_map]

/-- A task with a name that cannot be written does not pass its check. -/
theorem not_valid_of_unwritable {t : Task} (ht : t ∈ c.tasks) (h : t.name.isWritable = false) :
    ¬ c.Valid := by
  intro hvalid
  have hname := (Task.errors_eq_nil.1 (hvalid.tasks t ht)).1
  rw [(NameRule.refusal?_eq_none_iff.1 hname).1] at h
  cases h

theorem addTask_ofCatalog (c : Catalog) (t : Task) :
    (ofCatalog c).addTask t = ((c.addTask t).1, ofCatalog (c.addTask t).2) ∨
      (Overflows (c.addTask t).2 ∧
        (ofCatalog c).addTask t = (.error .overflow, ofCatalog c)) ∨
      (¬ (c.addTask t).2.Valid ∧
        (ofCatalog c).addTask t = (.error (.unwritable t.name), ofCatalog c)) := by
  rw [addTask, findRow?_ofCatalog, Option.isSome_map]
  by_cases hfound : (c.find? t.id).isSome = true
  · simp only [Catalog.addTask, hfound, if_true, true_or]
  · rw [Catalog.addTask, if_neg hfound, if_neg hfound]
    have hmem : t ∈ c.tasks ++ [t] := List.mem_append_right _ (List.mem_singleton.2 rfl)
    cases hname : t.name.isWritable with
    | false => exact .inr (.inr ⟨fun hvalid => not_valid_of_unwritable hmem hname hvalid, rfl⟩)
    | true =>
      by_cases hfits : fitsColumn t.order = true
      · left
        rw [if_pos hfits]
        simp [ofCatalog]
      · right; left
        rw [if_neg hfits]
        exact ⟨⟨t, hmem, hfits⟩, rfl⟩

theorem setOrders_ofCatalog (c : Catalog) (orders : List (Uuid × Int)) :
    (ofCatalog c).setOrders now orders =
        ((c.setOrders now orders).1, ofCatalog (c.setOrders now orders).2) ∨
      (Overflows (c.setOrders now orders).2 ∧
        (ofCatalog c).setOrders now orders = (.error .overflow, ofCatalog c)) := by
  rw [setOrders, firstMissing?_ofCatalog]
  unfold Catalog.setOrders
  cases hmiss : c.firstMissing? (orders.map (·.1)) with
  | some id => exact .inl rfl
  | none =>
    simp only [foldl_modify_ofCatalog]
    generalize orders.foldl (fun c (id, order) =>
      c.modify id fun t => { t with order := order, updated := now }) c = written
    -- all rows are written before the first number is found not to fit
    by_cases hfits : (ofCatalog written).tasks.all (fitsColumn ·.order) = true
    · exact .inl (if_pos hfits)
    · refine .inr ⟨?_, if_neg hfits⟩
      simp only [ofCatalog, List.all_map, List.all_eq_true, not_forall] at hfits
      obtain ⟨t, ht, hbig⟩ := hfits
      exact ⟨t, ht, hbig⟩

theorem remove_ofCatalog (h : c.UniqueIds) (id : Uuid) :
    (ofCatalog c).remove id = ((c.remove id).1, ofCatalog (c.remove id).2) ∨
      (¬ c.Valid ∧ ∃ e, e.IsRefusal ∧ (ofCatalog c).remove id = (.error e, ofCatalog c)) := by
  rw [remove, row_ofCatalog]
  rcases h.task_cases id with ⟨t, ht, rfl, hreply⟩ | ⟨-, hreply⟩
  · have hfilter : (c.tasks.map TaskRow.ofTask).filter (·.id != t.id.text) =
        (c.tasks.filter (·.id != t.id)).map TaskRow.ofTask := by
      rw [List.filter_map]
      refine congrArg _ (List.filter_congr fun s _ => ?_)
      rw [Bool.eq_iff_iff]
      simp [TaskRow.ofTask, Uuid.text_inj]
    rw [hreply, Catalog.remove, hreply]
    rcases TaskRow.reads_ofTask ht with hload | ⟨hbad, e, he, hload⟩
    · left
      simp only [Except.map, hload, ofCatalog, hfilter]
    · right
      simp only [Except.map, hload]
      exact ⟨hbad, e, he, rfl⟩
  · rw [hreply, Catalog.remove, hreply]
    exact .inl rfl

theorem addProject_ofCatalog (c : Catalog) (p : Project) :
    (ofCatalog c).addProject p = ((c.addProject p).1, ofCatalog (c.addProject p).2) ∨
      (¬ (c.Valid ∧ (c.addProject p).2.Valid) ∧ ∃ e, e.IsObjection ∧
        (ofCatalog c).addProject p = (.error e, ofCatalog c)) := by
  rw [addProject, findProjectRow?_ofCatalog, Option.isSome_map, Catalog.addProject]
  by_cases hid : (c.findProject? p.id).isSome = true
  · rw [if_pos hid, if_pos hid]
    exact .inl rfl
  · rw [if_neg hid, if_neg hid]
    cases hw : p.name.isWritable with
    | true =>
      rcases projectNamed_ofCatalog c hw with hname | ⟨hbad, e, he, hname⟩
      · left
        rw [hname]
        cases hfind : c.projectNamed? p.name with
        | some q => rfl
        | none => simp [ofCatalog]
      · right
        rw [hname]
        exact ⟨fun hboth => hbad hboth.1, e, .inl he, rfl⟩
    | false =>
      right
      rw [projectNamed_unwritable hw]
      refine ⟨?_, .unwritable p.name, .inr trivial, rfl⟩
      -- a project has this name already, or the new one has it
      have hrefused (q : Project) (hq : q.name = p.name) : q.errors ≠ [] := by
        rw [Ne, Project.errors_eq_nil, NameRule.refusal?_eq_none_iff, hq, hw]
        simp
      rintro ⟨hvalid, hvalid'⟩
      cases hfind : c.projectNamed? p.name with
      | some q =>
        have hname : q.name = p.name := by simpa using List.find?_some hfind
        exact hrefused q hname (hvalid.projects q (List.mem_of_find?_eq_some hfind))
      | none =>
        rw [hfind] at hvalid'
        exact hrefused p rfl (hvalid'.projects p (List.mem_append_right _ List.mem_cons_self))

/-- The row of a renamed task is loaded as the renamed task. -/
theorem rename_ofCatalog (h : c.UniqueIds) (id : Uuid) (name : Text) :
    Database.answer now (.rename id name) (ofCatalog c) =
        ((Backend.answer now (.rename id name) c).1,
          ofCatalog (Backend.answer now (.rename id name) c).2) ∨
      (¬ (Backend.answer now (.rename id name) c).2.Valid ∧
        ∃ e, e.IsObjection ∧
          (Database.answer now (.rename id name) (ofCatalog c)).1 = .error e) := by
  rw [Catalog.answer_rename]
  have hchange := change_ofCatalog id
    (f := fun t => { t with name := name, updated := now })
    (g := fun r => { r with name := name, updated := now }) (fun _ => rfl) c
  have hanswer : Database.answer now (.rename id name) (ofCatalog c) =
      if (c.find? id).isSome && !name.isWritable then (.error (.unwritable name), ofCatalog c)
      else (((ofCatalog c).change id fun r => { r with name := name, updated := now }).1.bind
          TaskRow.load,
        ((ofCatalog c).change id fun r => { r with name := name, updated := now }).2) := by
    change (ofCatalog c).rename now id name = _
    rw [rename, findRow?_ofCatalog, Option.isSome_map]
  rw [hanswer, hchange]
  rcases h.task_cases id with ⟨t, ht, rfl, -⟩ | ⟨hno, -⟩
  · rw [h.change_of_mem ht, h.find?_eq_some_iff.2 ⟨ht, rfl⟩]
    have hmem : { t with name := name, updated := now } ∈
        (c.revise (Catalog.only t.id fun t => { t with name := name, updated := now })).tasks :=
      List.mem_map.2 ⟨t, ht, if_pos rfl⟩
    cases hw : name.isWritable with
    | false => exact .inr ⟨not_valid_of_unwritable hmem hw, .unwritable name, .inr trivial, rfl⟩
    | true =>
      -- the new name is checked when the row is read back
      rcases TaskRow.reads_ofTask hmem with hload | ⟨hbad, e, he, hload⟩
      · exact .inl (Prod.ext hload rfl)
      · exact .inr ⟨hbad, e, .inl he, hload⟩
  · rw [Catalog.change_of_notMem hno, Catalog.find?_eq_none_iff.2 hno]
    exact .inl rfl

theorem setStatus_ofCatalog (id : Uuid) (status : Status) (c : Catalog) :
    Database.answer now (.setStatus id status) (ofCatalog c) =
      ((Backend.answer now (.setStatus id status) c).1,
        ofCatalog (Backend.answer now (.setStatus id status) c).2) := by
  have hchange := change_ofCatalog id
    (f := fun t => { t with status := status, updated := now })
    (g := fun r => { r with status := status.text, updated := now }) (fun _ => rfl) c
  change (((ofCatalog c).change id _).1.map _, ((ofCatalog c).change id _).2) = _
  rw [hchange, Catalog.answer_setStatus]
  refine Prod.ext ?_ rfl
  generalize (c.change id fun t => { t with status := status, updated := now }).1 = reply
  cases reply <;> rfl

/-! ### All requests -/

theorem about_ofCatalog {α : Type} (h : c.UniqueIds) (id : Uuid) {answer : α}
    {answer' : Except Failure α}
    (hanswer : ∀ t ∈ c.tasks, t.id = id → c.Reads answer' (.ok answer)) :
    c.Reads ((ofCatalog c).about id answer').1 (c.about id answer).1 := by
  rw [about, row_ofCatalog, Catalog.about]
  rcases h.task_cases id with ⟨t, ht, hid, hreply⟩ | ⟨-, hreply⟩
  · rw [hreply]
    exact hanswer t ht hid
  · rw [hreply]
    exact .refl c _

/-- **One request.**  The database answers as the catalog does and keeps up with it, unless a number
does not fit, a record is refused, or a project is looked for by a name that cannot be written. -/
theorem answer_ofCatalog (now : Instant) (h : c.Forest) (request : Call) :
    Database.answer now request (ofCatalog c) =
        ((Backend.answer now request c).1, ofCatalog (Backend.answer now request c).2) ∨
      (Overflows (Backend.answer now request c).2 ∧
        Database.answer now request (ofCatalog c) = (.error .overflow, ofCatalog c)) ∨
      (¬ (c.Valid ∧ (Backend.answer now request c).2.Valid ∧
          ∀ name ∈ request.sought?, name.isWritable = true) ∧
        ∃ e, e.IsObjection ∧ (Database.answer now request (ofCatalog c)).1 = .error e) := by
  -- a request that only reads leaves both as they are
  have hread {α : Type} {r expected : Except Failure α} {P : Prop} (hr : c.Reads r expected) :
      (r, ofCatalog c) = (expected, ofCatalog c) ∨
        (Overflows c ∧ (r, ofCatalog c) = (.error .overflow, ofCatalog c)) ∨
        (¬ (c.Valid ∧ c.Valid ∧ P) ∧ ∃ e, e.IsObjection ∧ r = .error e) := by
    rcases hr with rfl | ⟨hbad, e, he, hrefused⟩
    · exact .inl rfl
    · exact .inr (.inr ⟨fun hboth => hbad hboth.1, e, .inl he, hrefused⟩)
  cases request with
  | addTask t =>
    refine (addTask_ofCatalog c t).imp_right (Or.imp_right fun hbad => ?_)
    exact ⟨fun hboth => hbad.1 hboth.2.1, .unwritable t.name, .inr trivial,
      congrArg Prod.fst hbad.2⟩
  | setOrders orders => exact (setOrders_ofCatalog c orders).imp_right .inl
  | task id => exact hread (load_row_ofCatalog h.ids id)
  | children id => exact hread (about_ofCatalog h.ids id fun t _ _ => children_ofCatalog c id)
  | descendants id =>
    exact hread (about_ofCatalog h.ids id fun t ht hid => hid ▸ descendants_ofCatalog h ht)
  | roots project => exact hread (roots_ofCatalog c project)
  | tasksOf project => exact hread (tasksOf_ofCatalog c project)
  | tasksWith project status => exact hread (tasksWith_ofCatalog c project status)
  | allTasks => exact hread (allTasks_ofCatalog c)
  | rename id name =>
    refine (rename_ofCatalog h.ids id name).imp_right fun hbad => .inr ⟨?_, hbad.2⟩
    exact fun hboth => hbad.1 hboth.2.1
  | setStatus id status => exact .inl (setStatus_ofCatalog id status c)
  | remove id =>
    refine (remove_ofCatalog h.ids id).imp_right fun hbad => .inr ⟨fun hboth => hbad.1 hboth.1, ?_⟩
    obtain ⟨-, e, he, hanswer⟩ := hbad
    exact ⟨e, .inl he, congrArg Prod.fst hanswer⟩
  | addProject p =>
    refine (addProject_ofCatalog c p).imp_right fun hbad =>
      .inr ⟨fun hboth => hbad.1 ⟨hboth.1, hboth.2.1⟩, ?_⟩
    obtain ⟨-, e, he, hanswer⟩ := hbad
    exact ⟨e, he, congrArg Prod.fst hanswer⟩
  | project id => exact hread (project_ofCatalog c id)
  | projectNamed name =>
    cases hw : name.isWritable with
    | true => exact hread (projectNamed_ofCatalog c hw)
    | false =>
      refine .inr (.inr ⟨fun hboth => ?_, .unwritable name, .inr trivial,
        projectNamed_unwritable hw _⟩)
      exact Bool.false_ne_true (hw.symm.trans (hboth.2.2 name rfl))
  | allProjects => exact hread (allProjects_ofCatalog c)

end Database

end Agenda
