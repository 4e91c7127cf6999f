import Agenda.Proofs.Catalog.Preorder
import Agenda.Proofs.Database.Sessions

/-!
# What is below a task, in memory and in a database

Both stores find the tasks below a task by a walk with a stack, but the walks differ: the one in
memory starts from the task itself, which it must not list, and knows the pending tasks by their
identifiers; the one in a database starts from the children, and has loaded whatever is pending.

**Both walks end, and both list the pre-order** (`Catalog.Forest.descendants_exact`), in every store
whose identifiers are unique and in which no task is below itself.  Parents may be missing, siblings
may share an order or lie in different projects.  The walk in a database lists nothing that does not
pass its check (`Database.descendants_pass`); so it lists the pre-order just when all of it passes,
and is refused otherwise, however the other records are.
-/

namespace Agenda

/-- Two steps come to something if both do. -/
theorem exists_of_bind_eq_ok {ε α β : Type} {first : Except ε α} {f : α → Except ε β} {b : β}
    (h : first >>= f = .ok b) : ∃ a, first = .ok a ∧ f a = .ok b := by
  cases first with
  | ok a => exact ⟨a, rfl, h⟩
  | error e => cases h

variable {c : Catalog} {t : Task} {now : Instant}

namespace Database

open Store

variable {db : Database} {n m : Nat} {stack listed : List Task}

/-! ### What is loaded has passed its check -/

theorem TaskRow.errors_of_load {r : TaskRow} (h : r.load = .ok t) : t.errors = [] := by
  unfold TaskRow.load at h
  obtain ⟨id, -, h⟩ := exists_of_bind_eq_ok h
  obtain ⟨project, -, h⟩ := exists_of_bind_eq_ok h
  obtain ⟨parent, -, h⟩ := exists_of_bind_eq_ok h
  obtain ⟨status, -, h⟩ := exists_of_bind_eq_ok h
  dsimp only at h
  split at h
  · rename_i hpass
    cases h
    exact List.isEmpty_iff.1 hpass
  · cases h

theorem load_all_pass {rows : List TaskRow} (h : rows.mapM TaskRow.load = .ok listed) :
    ∀ t ∈ listed, t.errors = [] := by
  induction rows generalizing listed with
  | nil =>
    cases h
    exact fun t ht => nomatch ht
  | cons r rows ih =>
    rw [List.mapM_cons] at h
    obtain ⟨t, ht, h⟩ := exists_of_bind_eq_ok h
    obtain ⟨rest, hrest, h⟩ := exists_of_bind_eq_ok h
    cases h
    exact List.forall_mem_cons.2 ⟨TaskRow.errors_of_load ht, ih hrest⟩

theorem descendants_go_pass (hstack : ∀ t ∈ stack, t.errors = [])
    (h : descendants.go db n stack = .ok listed) : ∀ t ∈ listed, t.errors = [] := by
  induction n generalizing stack listed with
  | zero =>
    cases h
    exact fun t ht => nomatch ht
  | succ n ih =>
    cases stack with
    | nil =>
      cases h
      exact fun t ht => nomatch ht
    | cons t pending =>
      obtain ⟨ht, hpending⟩ := List.forall_mem_cons.1 hstack
      rw [descendants.go] at h
      obtain ⟨below, hbelow, h⟩ := exists_of_bind_eq_ok h
      obtain ⟨rest, hrest, h⟩ := exists_of_bind_eq_ok h
      cases h
      refine List.forall_mem_cons.2 ⟨ht, ih (fun s hs => ?_) hrest⟩
      exact (List.mem_append.1 hs).elim (load_all_pass hbelow s) (hpending s)

/-- **Nothing is listed unchecked.**  Whatever a database lists below a task passes its check. -/
theorem descendants_pass {id : Uuid} (h : db.descendants id = .ok listed) :
    ∀ t ∈ listed, t.errors = [] := by
  obtain ⟨top, htop, h⟩ := exists_of_bind_eq_ok h
  exact descendants_go_pass (load_all_pass htop) h

/-! ### The walk in a database -/

/-- The walk with nothing to bound it: from a stack of loaded tasks, it comes to its end after a
number of steps and has listed some tasks, with nothing refused on the way. -/
inductive Walk (db : Database) : Nat → List Task → List Task → Prop
  | done : Walk db 0 [] []
  | step {n : Nat} {t : Task} {pending below listed : List Task}
      (loaded : db.children t.id = .ok below) (rest : Walk db n (below ++ pending) listed) :
      Walk db (n + 1) (t :: pending) (t :: listed)

/-- Where the walk comes to its end, a bound does nothing to it unless it is smaller. -/
theorem Walk.go_eq (h : db.Walk n stack listed) (hm : n ≤ m) :
    descendants.go db m stack = .ok listed := by
  induction h generalizing m with
  | done => cases m <;> rfl
  | step loaded _ ih =>
    cases m with
    | zero => cases hm
    | succ m =>
      rw [descendants.go, loaded]
      change (descendants.go db m _ >>= _) = _
      rw [ih (Nat.le_of_succ_le_succ hm)]
      rfl

/-- Tasks that pass their check are loaded as they are. -/
theorem load_all_of_pass {ts : List Task} (hpass : ∀ t ∈ ts, t.errors = []) :
    (ts.map TaskRow.ofTask).mapM TaskRow.load = .ok ts := by
  induction ts with
  | nil => rfl
  | cons t ts ih =>
    obtain ⟨ht, hts⟩ := List.forall_mem_cons.1 hpass
    rw [List.map_cons, List.mapM_cons, TaskRow.load_ofTask, ht, ih hts]
    rfl

/-- If everything below the tasks of its stack passes its check, the walk lists these tasks, each
followed by the tasks below it, and takes a step for each. -/
theorem walk_stack (h : c.Forest) (stack : List Task)
    (hpass : ∀ t ∈ stack.flatMap fun t => h.acyclic.preorder t.id, t.errors = []) :
    (ofCatalog c).Walk (stack.flatMap fun t => t :: h.acyclic.preorder t.id).length stack
      (stack.flatMap fun t => t :: h.acyclic.preorder t.id) := by
  -- on the tasks to be listed, as in memory
  generalize hlist : (stack.flatMap fun t => t :: h.acyclic.preorder t.id) = list
  induction list generalizing stack with
  | nil =>
    cases stack with
    | nil => exact .done
    | cons t pending =>
      rw [List.flatMap_cons, List.cons_append] at hlist
      exact absurd hlist (List.cons_ne_nil _ _)
  | cons s list ih =>
    cases stack with
    | nil => exact absurd hlist.symm (List.cons_ne_nil _ _)
    | cons t pending =>
      rw [List.flatMap_cons, List.cons_append] at hlist
      obtain ⟨rfl, hbehind⟩ := List.cons.inj hlist
      rw [List.flatMap_cons, List.forall_mem_append] at hpass
      have hchildren : ∀ s ∈ c.children t.id, s.errors = [] ∧
          ∀ d ∈ h.acyclic.preorder s.id, d.errors = [] := fun s hs => by
        obtain ⟨hs, hp⟩ := mem_childrenIn.1 hs
        have hpart := h.acyclic.sublist_preorder hs hp
        exact List.forall_mem_cons.1 fun d hd => hpass.1 d (hpart.subset hd)
      refine .step ((children_eq c t.id).trans (load_all_of_pass fun s hs => (hchildren s hs).1))
        (ih (c.children t.id ++ pending) ?_ ?_)
      · rw [List.flatMap_append, List.forall_mem_append]
        refine ⟨fun d hd => ?_, hpass.2⟩
        obtain ⟨s, hs, hd⟩ := List.mem_flatMap.1 hd
        exact (hchildren s hs).2 d hd
      · rw [List.flatMap_append, Catalog.children, ← h.acyclic.preorder_eq, hbehind]

/-- If everything below a task passes its check, the walk from the children of the task lists what
is below it as the recursion does. -/
theorem walk_preorder (h : c.Forest) {u : Uuid}
    (hpass : ∀ d ∈ h.acyclic.preorder u, d.errors = []) :
    (ofCatalog c).Walk (h.acyclic.preorder u).length (c.children u) (h.acyclic.preorder u) := by
  have hpre : (c.children u).flatMap (fun t => t :: h.acyclic.preorder t.id) =
      h.acyclic.preorder u := by
    rw [Catalog.children, ← h.acyclic.preorder_eq]
  have hwalk := walk_stack h (c.children u) fun d hd => hpass d (by
    obtain ⟨s, hs, hd⟩ := List.mem_flatMap.1 hd
    exact hpre ▸ List.mem_flatMap.2 ⟨s, hs, List.mem_cons_of_mem _ hd⟩)
  rwa [hpre] at hwalk

theorem descendants_of_pass (h : c.Forest) (ht : t ∈ c.tasks)
    (hpass : ∀ d ∈ h.acyclic.preorder t.id, d.errors = []) :
    (ofCatalog c).descendants t.id = .ok (h.acyclic.preorder t.id) := by
  have hchildren : ∀ s ∈ c.children t.id, s.errors = [] := fun s hs => by
    obtain ⟨hs, hp⟩ := mem_childrenIn.1 hs
    exact hpass s (h.acyclic.mem_preorder_iff_child.2 ⟨s, hs, hp, .inl rfl⟩)
  have hsize : (ofCatalog c).tasks.length = c.tasks.length := List.length_map _
  have hlen := h.acyclic.length_preorder_lt h.ids ht
  rw [descendants, children_eq, load_all_of_pass hchildren]
  exact (walk_preorder h hpass).go_eq (by omega)

/-- If something below a task does not pass its check, a database does not list what is below it. -/
theorem descendants_of_not_pass (h : c.Forest) (ht : t ∈ c.tasks)
    (hbad : ∃ d ∈ h.acyclic.preorder t.id, d.errors ≠ []) :
    ∃ e, e.IsRefusal ∧ (ofCatalog c).descendants t.id = .error e := by
  rcases descendants_ofCatalog h ht with hlisted | ⟨-, hrefused⟩
  · rw [Catalog.descendants_eq_preorder h.ids h.acyclic ht] at hlisted
    obtain ⟨d, hd, hfails⟩ := hbad
    exact absurd (descendants_pass hlisted d hd) hfails
  · exact hrefused

end Database

/-- A session lists what is below a task as its tables do. -/
theorem Session.answer_descendants (now : Instant) (opened : Database) (c : Catalog) (id : Uuid)
    {r : Except Failure (List Task)} (hr : ((Database.ofCatalog c).about id
      ((Database.ofCatalog c).descendants id)).1 = r) (hfits : r ≠ .error .overflow) :
    Store.Backend.answer now (.descendants id) (Session.holding opened c) =
      (r, Session.holding opened c) :=
  Session.answer_eq opened (Prod.ext hr rfl) (Session.breaksOff_of_isRead trivial hfits)

/-! ### Both walks -/

/-- **Pre-order.**  In every store of tasks without cycles, whatever the task: a task that is not
stored is a missing task to both stores.  From a stored task, both walks come to their end, and what
they list is the pre-order; in a database, everything listed has to pass its check.  The pre-order
is the only list that follows its equation: for each child in ascending order, those of one order as
they were added, the child and then its own list.  It has each task below once, and after its
parent. -/
theorem Catalog.Forest.descendants_exact (h : c.Forest) (opened : Database) (now : Instant)
    (id : Uuid) :
    ((∀ t ∈ c.tasks, t.id ≠ id) →
      Store.Backend.answer now (.descendants id) c = (.error (.of (.noTask id)), c) ∧
        Store.Backend.answer now (.descendants id) (Session.holding opened c) =
          (.error (.of (.noTask id)), Session.holding opened c)) ∧
    ((∃ t ∈ c.tasks, t.id = id) →
      (Store.Backend.answer now (.descendants id) c = (.ok (h.acyclic.preorder id), c) ∧
        c.Walk id ((h.acyclic.preorder id).length + 1) [id] (h.acyclic.preorder id)) ∧
      ((∀ d ∈ h.acyclic.preorder id, d.errors = []) →
        Store.Backend.answer now (.descendants id) (Session.holding opened c) =
            (.ok (h.acyclic.preorder id), Session.holding opened c) ∧
          (Database.ofCatalog c).Walk (h.acyclic.preorder id).length (c.children id)
            (h.acyclic.preorder id)) ∧
      ((∃ d ∈ h.acyclic.preorder id, d.errors ≠ []) →
        ∃ e, e.IsRefusal ∧
          Store.Backend.answer now (.descendants id) (Session.holding opened c) =
            (.error e, Session.holding opened c))) ∧
    (∀ below : Uuid → List Task,
      (∀ u, below u = (c.children u).flatMap fun s => s :: below s.id) ↔
        below = h.acyclic.preorder) ∧
    (∀ u, (∀ s, s ∈ c.children u ↔ s ∈ c.tasks ∧ s.parent = some u) ∧
      (c.children u).Nodup ∧
      (c.children u).Pairwise fun s t =>
        s.order < t.order ∨ s.order = t.order ∧ [s, t].Sublist c.tasks) ∧
    (∀ u, (∀ d, d ∈ h.acyclic.preorder u ↔ d ∈ c.tasks ∧ Below c.tasks u d.id) ∧
      (h.acyclic.preorder u).Nodup ∧
      ∀ d ∈ h.acyclic.preorder u, d.parent = some u ∨
        ∃ s, d.parent = some s.id ∧ [s, d].Sublist (h.acyclic.preorder u)) := by
  refine ⟨fun hno => ?_, ?_, fun below => ⟨h.acyclic.preorder_unique, ?_⟩, fun u => ?_, fun u => ?_⟩
  · have hreply : c.task id = .error (.of (.noTask id)) := Catalog.task_of_notMem hno
    refine ⟨?_, Session.answer_descendants now opened c id ?_ (by rintro ⟨⟩)⟩
    · rw [Catalog.answer_descendants, Catalog.about, hreply]
      rfl
    · rw [Database.about, Database.row_ofCatalog, hreply]
      rfl
  · rintro ⟨t, ht, rfl⟩
    have hreply : c.task t.id = .ok t := h.ids.task_of_mem ht
    have hwalk := Catalog.walk_preorder h.ids h.acyclic t.id
    have hlisted := Catalog.descendants_eq_preorder h.ids h.acyclic ht
    have hdatabase : ((Database.ofCatalog c).about t.id
        ((Database.ofCatalog c).descendants t.id)).1 = (Database.ofCatalog c).descendants t.id := by
      rw [Database.about, Database.row_ofCatalog, hreply]
      rfl
    refine ⟨⟨?_, hwalk⟩, fun hpass => ⟨?_, Database.walk_preorder h hpass⟩, fun hbad => ?_⟩
    · rw [Catalog.answer_descendants, h.ids.about_of_mem ht, hlisted]
    · exact Session.answer_descendants now opened c t.id
        (hdatabase.trans (Database.descendants_of_pass h ht hpass)) (by rintro ⟨⟩)
    · obtain ⟨e, hrefusal, hrefused⟩ := Database.descendants_of_not_pass h ht hbad
      refine ⟨e, hrefusal, Session.answer_descendants now opened c t.id
        (hdatabase.trans hrefused) fun he => ?_⟩
      obtain ⟨subject, errors, rfl⟩ := hrefusal
      cases he
  · rintro rfl
    exact h.acyclic.preorder_eq
  · exact ⟨fun s => mem_childrenIn, nodup_childrenIn h.ids u, pairwise_childrenIn c.tasks u⟩
  · exact ⟨fun d => h.acyclic.mem_preorder h.ids, h.acyclic.nodup_preorder h.ids u,
      fun d hd => h.acyclic.parent_sublist_preorder hd⟩

namespace Catalog

/-- Tasks of which one lacks its parent, two have the same place, and one is in a project of its
own. -/
def thicket : Catalog where
  projects := [⟨⟨1#128⟩, "Home", ⟨1⟩⟩]
  tasks := [⟨⟨2#128⟩, "Sweep", ⟨1#128⟩, some ⟨9#128⟩, .pending, 0, ⟨2⟩, ⟨2⟩⟩,
    ⟨⟨3#128⟩, "Mop", ⟨1#128⟩, some ⟨2#128⟩, .pending, 1, ⟨3⟩, ⟨3⟩⟩,
    ⟨⟨4#128⟩, "Wring", ⟨8#128⟩, some ⟨3#128⟩, .pending, 7, ⟨4⟩, ⟨4⟩⟩,
    ⟨⟨5#128⟩, "Dust", ⟨1#128⟩, some ⟨2#128⟩, .pending, 1, ⟨5⟩, ⟨5⟩⟩]

theorem forest_thicket : thicket.Forest where
  ids := (by decide : (thicket.tasks.map (·.id)).Nodup)
  acyclic :=
    have hone := WellFormed.empty.acyclic.append (t := thicket.tasks[0]) (by decide) (by decide)
    have htwo := hone.append (t := thicket.tasks[1]) (by decide) (by decide)
    have hthree := htwo.append (t := thicket.tasks[2]) (by decide) (by decide)
    hthree.append (t := thicket.tasks[3]) (by decide) (by decide)

/-- Of the two tasks with the same place, the one that was added first comes first, with what is
below it. -/
theorem descendants_exact_thicket :
    thicket.Forest ∧
      Store.Backend.answer ⟨6⟩ (.descendants ⟨2#128⟩) thicket =
        (.ok [thicket.tasks[1], thicket.tasks[2], thicket.tasks[3]], thicket) ∧
      Store.Backend.answer ⟨6⟩ (.descendants ⟨2#128⟩) (Session.holding .empty thicket) =
        (.ok [thicket.tasks[1], thicket.tasks[2], thicket.tasks[3]],
          Session.holding .empty thicket) := by
  obtain ⟨-, hstored, -⟩ := forest_thicket.descendants_exact .empty ⟨6⟩ ⟨2#128⟩
  obtain ⟨⟨hmemory, -⟩, hdatabase, -⟩ := hstored (by decide)
  have hanswer : Store.Backend.answer ⟨6⟩ (.descendants ⟨2#128⟩) thicket =
      (.ok [thicket.tasks[1], thicket.tasks[2], thicket.tasks[3]], thicket) := by rfl
  have hlist : forest_thicket.acyclic.preorder ⟨2#128⟩ =
      [thicket.tasks[1], thicket.tasks[2], thicket.tasks[3]] :=
    Except.ok.inj (Prod.mk.inj (hmemory.symm.trans hanswer)).1
  rw [hlist] at hdatabase
  exact ⟨forest_thicket, hanswer, (hdatabase (by decide)).1⟩

end Catalog

end Agenda
