import Agenda.Store.Catalog
import Mathlib.Data.List.Nodup

/-!
# What a catalog does with its records

Every request to a catalog either only looks, or is one of four writes: a record is added at the
end, every task is rewritten by a function (`revise`), or tasks are taken out by their identifiers
(`without`).  Renaming, setting a status and setting places are all of the second kind; the
function for places is `Task.placed`.

When no two tasks share an identifier (`UniqueIds`), looking up an identifier is membership, and
each write has one short equation here (`change_of_mem`, `setOrders_of_stored`, `remove_of_mem`).
-/

namespace Agenda

/-! ### Places -/

/-- A task with the last place that a list of places has for it. -/
def Task.placed (now : Instant) (orders : List (Uuid × Int)) (t : Task) : Task :=
  orders.foldl (fun t (id, order) =>
    if t.id = id then { t with order := order, updated := now } else t) t

namespace Task

@[simp] theorem placed_nil (now : Instant) (t : Task) : t.placed now [] = t := rfl

theorem placed_cons (now : Instant) (id : Uuid) (order : Int) (orders : List (Uuid × Int))
    (t : Task) : t.placed now ((id, order) :: orders) =
      (if t.id = id then { t with order := order, updated := now } else t).placed now orders := rfl

/-- A place is all that changes, and the time of the change. -/
theorem placed_eq (now : Instant) (orders : List (Uuid × Int)) (t : Task) :
    ∃ order updated, t.placed now orders = { t with order := order, updated := updated } := by
  induction orders generalizing t with
  | nil => exact ⟨t.order, t.updated, rfl⟩
  | cons o orders ih =>
    obtain ⟨id, order⟩ := o
    rw [placed_cons]
    split
    · obtain ⟨order', updated', h⟩ := ih { t with order := order, updated := now }
      exact ⟨order', updated', h⟩
    · exact ih t

@[simp] theorem placed_id (now : Instant) (orders : List (Uuid × Int)) (t : Task) :
    (t.placed now orders).id = t.id := by
  obtain ⟨_, _, h⟩ := placed_eq now orders t
  rw [h]

@[simp] theorem placed_parent (now : Instant) (orders : List (Uuid × Int)) (t : Task) :
    (t.placed now orders).parent = t.parent := by
  obtain ⟨_, _, h⟩ := placed_eq now orders t
  rw [h]

@[simp] theorem placed_project (now : Instant) (orders : List (Uuid × Int)) (t : Task) :
    (t.placed now orders).project = t.project := by
  obtain ⟨_, _, h⟩ := placed_eq now orders t
  rw [h]

@[simp] theorem placed_name (now : Instant) (orders : List (Uuid × Int)) (t : Task) :
    (t.placed now orders).name = t.name := by
  obtain ⟨_, _, h⟩ := placed_eq now orders t
  rw [h]

/-- A task without a place in the list stays as it is. -/
theorem placed_of_notMem {now : Instant} {orders : List (Uuid × Int)} {t : Task}
    (h : t.id ∉ orders.map (·.1)) : t.placed now orders = t := by
  induction orders with
  | nil => rfl
  | cons o orders ih =>
    simp only [List.map_cons, List.mem_cons, not_or] at h
    rw [placed_cons, if_neg h.1, ih h.2]

/-- A task with one place in the list gets that place. -/
theorem placed_of_mem {now : Instant} {orders : List (Uuid × Int)} {t : Task} {order : Int}
    (hnd : (orders.map (·.1)).Nodup) (h : (t.id, order) ∈ orders) :
    t.placed now orders = { t with order := order, updated := now } := by
  induction orders with
  | nil => cases h
  | cons o orders ih =>
    rw [List.map_cons, List.nodup_cons] at hnd
    rw [placed_cons]
    rcases List.mem_cons.1 h with rfl | h
    · rw [if_pos rfl]
      exact placed_of_notMem hnd.1
    · have hne : t.id ≠ o.1 := fun he => hnd.1 (he ▸ List.mem_map_of_mem h)
      rw [if_neg hne]
      exact ih hnd.2 h

/-- **Places.**  A task that is not in the list stays as it is, and one that is in the list gets the
place that the list has for it last. -/
theorem placed_cases (now : Instant) (orders : List (Uuid × Int)) (t : Task) :
    (t.id ∉ orders.map (·.1) ∧ t.placed now orders = t) ∨
      ∃ front order back, orders = front ++ (t.id, order) :: back ∧ t.id ∉ back.map (·.1) ∧
        t.placed now orders = { t with order := order, updated := now } := by
  induction orders generalizing t with
  | nil => exact .inl ⟨List.not_mem_nil, rfl⟩
  | cons o orders ih =>
    obtain ⟨id, order⟩ := o
    rw [placed_cons]
    by_cases hid : t.id = id
    · rw [if_pos hid]
      right
      rcases ih { t with order := order, updated := now } with
        ⟨hnot, hsame⟩ | ⟨front, last, back, rfl, hnot, hplaced⟩
      · exact ⟨[], order, orders, by rw [hid]; rfl, hnot, hsame⟩
      · exact ⟨(id, order) :: front, last, back, rfl, hnot, hplaced⟩
    · rw [if_neg hid]
      rcases ih t with ⟨hnot, hsame⟩ | ⟨front, last, back, rfl, hnot, hplaced⟩
      · left
        rw [List.map_cons, List.mem_cons, not_or]
        exact ⟨⟨hid, hnot⟩, hsame⟩
      · exact .inr ⟨(id, order) :: front, last, back, rfl, hnot, hplaced⟩

/-- Wherever a task is put, the place is one of the list, or the one that the task had. -/
theorem placed_order_mem (now : Instant) (orders : List (Uuid × Int)) (t : Task) :
    (t.placed now orders).order = t.order ∨ (t.placed now orders).order ∈ orders.map (·.2) := by
  rcases placed_cases now orders t with ⟨-, hsame⟩ | ⟨front, order, back, rfl, -, hplaced⟩
  · exact .inl (congrArg order hsame)
  · right
    rw [hplaced]
    exact List.mem_map.2 ⟨(t.id, order), by simp, rfl⟩

end Task

namespace Catalog

variable {c : Catalog} {t : Task} {id : Uuid} {now : Instant}

/-! ### Answers, one for each request -/

section Answers

variable (now) (c)

@[simp] theorem answer_addTask : Store.Backend.answer now (.addTask t) c = c.addTask t := rfl
@[simp] theorem answer_task : Store.Backend.answer now (.task id) c = (c.task id, c) := rfl
@[simp] theorem answer_children :
    Store.Backend.answer now (.children id) c = c.about id (c.children id) := rfl
@[simp] theorem answer_descendants :
    Store.Backend.answer now (.descendants id) c = c.about id (c.descendants id) := rfl
@[simp] theorem answer_roots (project : Uuid) :
    Store.Backend.answer now (.roots project) c = (.ok (c.roots project), c) := rfl
@[simp] theorem answer_rename (name : Text) : Store.Backend.answer now (.rename id name) c =
    c.change id fun t => { t with name := name, updated := now } := rfl
@[simp] theorem answer_setOrders (orders : List (Uuid × Int)) :
    Store.Backend.answer now (.setOrders orders) c = c.setOrders now orders := rfl
@[simp] theorem answer_setStatus (status : Status) :
    Store.Backend.answer now (.setStatus id status) c =
      ((c.change id fun t => { t with status := status, updated := now }).1.map fun _ => (),
        (c.change id fun t => { t with status := status, updated := now }).2) := rfl
@[simp] theorem answer_remove : Store.Backend.answer now (.remove id) c = c.remove id := rfl
@[simp] theorem answer_addProject (p : Project) :
    Store.Backend.answer now (.addProject p) c = c.addProject p := rfl
@[simp] theorem answer_projectNamed (name : Text) :
    Store.Backend.answer now (.projectNamed name) c = (.ok (c.projectNamed? name), c) := rfl

end Answers

/-- The project with an identifier, as a request gets it. -/
theorem answer_project (project : Uuid) :
    Store.Backend.answer now (.project project) c =
      (match c.findProject? project with
        | some p => .ok p
        | none => .error (.of (.noProject project)), c) := rfl

/-! ### Looking up -/

/-- No two tasks share an identifier. -/
def UniqueIds (c : Catalog) : Prop := (c.tasks.map (·.id)).Nodup

/-- Tasks with one identifier are one task. -/
theorem UniqueIds.eq (h : c.UniqueIds) {s t : Task} (hs : s ∈ c.tasks) (ht : t ∈ c.tasks)
    (hid : s.id = t.id) : s = t :=
  List.inj_on_of_nodup_map h hs ht hid

theorem find?_eq_none_iff : c.find? id = none ↔ ∀ t ∈ c.tasks, t.id ≠ id := by
  simp [find?]

theorem isSome_find?_iff : (c.find? id).isSome ↔ ∃ t ∈ c.tasks, t.id = id := by
  rw [find?, List.find?_isSome]
  simp only [decide_eq_true_eq]

theorem UniqueIds.find?_eq_some_iff (h : c.UniqueIds) :
    c.find? id = some t ↔ t ∈ c.tasks ∧ t.id = id := by
  constructor
  · intro hf
    exact ⟨List.mem_of_find?_eq_some hf, by simpa using List.find?_some hf⟩
  · rintro ⟨ht, rfl⟩
    cases hf : c.find? t.id with
    | none => exact absurd rfl (find?_eq_none_iff.1 hf t ht)
    | some s =>
      have hs : s ∈ c.tasks := List.mem_of_find?_eq_some hf
      have hid : s.id = t.id := by simpa using List.find?_some hf
      rw [h.eq hs ht hid]

theorem UniqueIds.task_of_mem (h : c.UniqueIds) (ht : t ∈ c.tasks) : c.task t.id = .ok t := by
  rw [task, h.find?_eq_some_iff.2 ⟨ht, rfl⟩]

theorem task_of_notMem (h : ∀ t ∈ c.tasks, t.id ≠ id) : c.task id = .error (.of (.noTask id)) := by
  rw [task, find?_eq_none_iff.2 h]

/-- A task is stored or not, and what a request for it gets in either case. -/
theorem UniqueIds.task_cases (h : c.UniqueIds) (id : Uuid) :
    (∃ t ∈ c.tasks, t.id = id ∧ c.task id = .ok t) ∨
      ((∀ t ∈ c.tasks, t.id ≠ id) ∧ c.task id = .error (.of (.noTask id))) := by
  by_cases hid : ∃ t ∈ c.tasks, t.id = id
  · obtain ⟨t, ht, rfl⟩ := hid
    exact .inl ⟨t, ht, rfl, h.task_of_mem ht⟩
  · have hno : ∀ t ∈ c.tasks, t.id ≠ id := fun t ht he => hid ⟨t, ht, he⟩
    exact .inr ⟨hno, task_of_notMem hno⟩

theorem UniqueIds.about_of_mem {α : Type} (h : c.UniqueIds) (ht : t ∈ c.tasks) (answer : α) :
    c.about t.id answer = (.ok answer, c) := by
  rw [about, h.task_of_mem ht]
  rfl

/-- A project is stored or not, and what a request for it gets in either case. -/
theorem project_cases (now : Instant) (c : Catalog) (id : Uuid) :
    (∃ p ∈ c.projects, p.id = id ∧ Store.Backend.answer now (.project id) c = (.ok p, c)) ∨
      ((∀ p ∈ c.projects, p.id ≠ id) ∧
        Store.Backend.answer now (.project id) c = (.error (.of (.noProject id)), c)) := by
  rw [answer_project]
  cases hfind : c.findProject? id with
  | some p =>
    exact .inl ⟨p, List.mem_of_find?_eq_some hfind, by simpa using List.find?_some hfind, rfl⟩
  | none => exact .inr ⟨by simpa [findProject?] using hfind, rfl⟩

/-! ### Rewriting tasks -/

/-- Every task rewritten by a function. -/
def revise (f : Task → Task) (c : Catalog) : Catalog := { c with tasks := c.tasks.map f }

@[simp] theorem revise_tasks (f : Task → Task) (c : Catalog) :
    (c.revise f).tasks = c.tasks.map f := rfl

@[simp] theorem revise_projects (f : Task → Task) (c : Catalog) :
    (c.revise f).projects = c.projects := rfl

/-- A function that leaves every stored task alone rewrites nothing. -/
theorem revise_eq_self {f : Task → Task} (h : ∀ t ∈ c.tasks, f t = t) : c.revise f = c := by
  have hmap : c.tasks.map f = c.tasks := by
    conv_rhs => rw [← List.map_id c.tasks]
    exact List.map_congr_left h
  rw [revise, hmap]

theorem revise_congr {f g : Task → Task} (h : ∀ t ∈ c.tasks, f t = g t) :
    c.revise f = c.revise g := by
  rw [revise, List.map_congr_left h, revise]

theorem UniqueIds.revise (h : c.UniqueIds) {f : Task → Task} (hf : ∀ t, (f t).id = t.id) :
    (c.revise f).UniqueIds := by
  have hmap : (c.tasks.map f).map (·.id) = c.tasks.map (·.id) := by
    rw [List.map_map]
    exact List.map_congr_left fun t _ => hf t
  rw [UniqueIds, revise_tasks, hmap]
  exact h

/-- A change of one task is a rewriting of all. -/
def only (id : Uuid) (f : Task → Task) (t : Task) : Task := if t.id = id then f t else t

theorem UniqueIds.change_of_mem (h : c.UniqueIds) (ht : t ∈ c.tasks) (f : Task → Task) :
    c.change t.id f = (.ok (f t), c.revise (only t.id f)) := by
  rw [change, h.task_of_mem ht]
  rfl

theorem change_of_notMem (h : ∀ t ∈ c.tasks, t.id ≠ id) (f : Task → Task) :
    c.change id f = (.error (.of (.noTask id)), c) := by
  rw [change, task_of_notMem h]

/-- Changing tasks one after another is rewriting all of them by all of the changes. -/
theorem foldl_modify (now : Instant) (orders : List (Uuid × Int)) (c : Catalog) :
    orders.foldl
        (fun c (id, order) => c.modify id fun t => { t with order := order, updated := now }) c =
      c.revise (Task.placed now orders) := by
  induction orders generalizing c with
  | nil => exact (revise_eq_self fun t _ => Task.placed_nil now t).symm
  | cons o orders ih =>
    rw [List.foldl_cons, ih]
    simp only [modify, revise, List.map_map]
    rfl

/-- No identifier is missing, or there is a first one that is. -/
theorem firstMissing?_cases (c : Catalog) (ids : List Uuid) :
    ((∀ id ∈ ids, ∃ t ∈ c.tasks, t.id = id) ∧ c.firstMissing? ids = none) ∨
      ∃ front id back, ids = front ++ id :: back ∧ (∀ i ∈ front, ∃ t ∈ c.tasks, t.id = i) ∧
        (∀ t ∈ c.tasks, t.id ≠ id) ∧ c.firstMissing? ids = some id := by
  cases hmiss : c.firstMissing? ids with
  | none =>
    refine .inl ⟨fun id hid => isSome_find?_iff.1 ?_, rfl⟩
    have hfound := List.find?_eq_none.1 hmiss id hid
    rwa [Bool.not_eq_true, Option.isNone_eq_false_iff] at hfound
  | some id =>
    obtain ⟨hid, front, back, hsplit, hfront⟩ := List.find?_eq_some_iff_append.1 hmiss
    refine .inr ⟨front, id, back, hsplit, fun i hi => isSome_find?_iff.1 ?_, ?_, rfl⟩
    · simpa using hfront i hi
    · exact find?_eq_none_iff.1 (Option.isNone_iff_eq_none.1 hid)

/-- Places for stored tasks are set all at once. -/
theorem setOrders_of_stored {orders : List (Uuid × Int)}
    (h : ∀ o ∈ orders, ∃ t ∈ c.tasks, t.id = o.1) :
    c.setOrders now orders = (.ok (), c.revise (Task.placed now orders)) := by
  have hmiss : c.firstMissing? (orders.map (·.1)) = none := by
    rcases c.firstMissing?_cases (orders.map (·.1)) with
      ⟨-, hnone⟩ | ⟨front, id, back, hsplit, -, hno, -⟩
    · exact hnone
    · have hid : id ∈ orders.map (·.1) := by rw [hsplit]; simp
      obtain ⟨o, ho, rfl⟩ := List.mem_map.1 hid
      obtain ⟨t, ht, hto⟩ := h o ho
      exact absurd hto (hno t ht)
  rw [setOrders, hmiss]
  simp only [foldl_modify]

/-! ### Taking tasks out -/

/-- The catalog without the tasks with some identifiers. -/
def without (D : List Uuid) (c : Catalog) : Catalog :=
  { c with tasks := c.tasks.filter (·.id ∉ D) }

@[simp] theorem without_projects (D : List Uuid) (c : Catalog) :
    (c.without D).projects = c.projects := rfl

@[simp] theorem mem_without {D : List Uuid} :
    t ∈ (c.without D).tasks ↔ t ∈ c.tasks ∧ t.id ∉ D := by
  simp [without]

@[simp] theorem without_nil (c : Catalog) : c.without [] = c := by
  simp [without]

theorem without_without (D E : List Uuid) (c : Catalog) :
    (c.without D).without E = c.without (D ++ E) := by
  simp only [without, List.filter_filter, List.mem_append, not_or, Bool.decide_and]
  congr 1
  exact List.filter_congr fun t _ => Bool.and_comm _ _

/-- Only which identifiers are meant counts, not their order. -/
theorem without_congr {D E : List Uuid} (h : ∀ id, id ∈ D ↔ id ∈ E) (c : Catalog) :
    c.without D = c.without E := by
  simp only [without, h]

/-- Taking out and rewriting can change places. -/
theorem revise_without {f : Task → Task} (hf : ∀ t, (f t).id = t.id) (D : List Uuid)
    (c : Catalog) : (c.revise f).without D = (c.without D).revise f := by
  have hfilter : (c.tasks.map f).filter (·.id ∉ D) = (c.tasks.filter (·.id ∉ D)).map f := by
    rw [List.filter_map]
    exact congrArg _ (List.filter_congr fun t _ => by simp [hf t])
  rw [without, revise_tasks, hfilter]
  rfl

theorem UniqueIds.without (h : c.UniqueIds) (D : List Uuid) : (c.without D).UniqueIds :=
  (List.filter_sublist.map _).nodup h

theorem UniqueIds.remove_of_mem (h : c.UniqueIds) (ht : t ∈ c.tasks) :
    c.remove t.id = (.ok t, c.without [t.id]) := by
  rw [remove, h.task_of_mem ht]
  simp only [Catalog.without, List.mem_singleton]
  congr 2
  exact List.filter_congr fun s _ => by simp [bne, BEq.beq]

/-! ### Adding a task -/

/-- The catalog with one more task. -/
def withTask (t : Task) (c : Catalog) : Catalog := { c with tasks := c.tasks ++ [t] }

@[simp] theorem withTask_tasks (t : Task) (c : Catalog) : (c.withTask t).tasks = c.tasks ++ [t] :=
  rfl

@[simp] theorem withTask_projects (t : Task) (c : Catalog) :
    (c.withTask t).projects = c.projects := rfl

theorem addTask_of_notMem (h : ∀ s ∈ c.tasks, s.id ≠ t.id) :
    c.addTask t = (.ok (), c.withTask t) := by
  rw [addTask, find?_eq_none_iff.2 h]
  rfl

theorem addTask_of_mem (h : ∃ s ∈ c.tasks, s.id = t.id) :
    c.addTask t = (.error (.of (.taskExists t.id)), c) := by
  have hf : (c.find? t.id).isSome := by
    obtain ⟨s, hs, hid⟩ := h
    rw [Option.isSome_iff_ne_none]
    exact fun hn => find?_eq_none_iff.1 hn s hs hid
  rw [addTask, if_pos hf]

theorem UniqueIds.withTask (h : c.UniqueIds) (ht : ∀ s ∈ c.tasks, s.id ≠ t.id) :
    (c.withTask t).UniqueIds := by
  rw [UniqueIds, withTask_tasks, List.map_append, List.nodup_append]
  refine ⟨h, List.nodup_singleton _, ?_⟩
  rintro a ha b hb rfl
  obtain ⟨s, hs, rfl⟩ := List.mem_map.1 ha
  simp only [List.map_cons, List.map_nil, List.mem_singleton] at hb
  exact ht s hs hb

end Catalog

end Agenda
