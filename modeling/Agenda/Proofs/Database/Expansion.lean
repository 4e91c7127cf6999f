import Agenda.Proofs.Catalog.Trees
import Agenda.Proofs.Database.Walks
import Agenda.Proofs.Program.Outcome
import Mathlib.Data.Set.Card

/-!
# A task with everything below it

A task is expanded by three loops.  The walk of the store lists the tasks below it; then each task,
beginning with the one at the top, gets its subtasks from that list (`Attaching`); and whoever asks
how many tasks are below one of them has the tree gone through once more (`Tree.Counting`).  Each
loop keeps what is still to be done on a stack, and none of them is bounded.

**All three agree with what is stored** (`Catalog.Forest.read_exact`).  In every store whose
identifiers are unique and in which no task is below itself, reading a stored task with everything
below it comes to an end.  The tree, written out, is the task and then the list of the walk; each
tree within it has the children of its top right below the top, in ascending order, and counts as
many tasks as there are below the top in the store (`Tree.Faithful`).  A database gives the same
tree if what it reads passes its check, and is refused otherwise.

The two later loops take the subtask that comes last first, so they do not go through the tree as it
is listed.  What they do is the same up to order, and that is enough for both: it does not matter
when a task gets its subtasks (`Catalog.Forest.attaching_stack`), nor when it is counted
(`Tree.counting_stack`).
-/

namespace Agenda

namespace Tree

variable {t : Tree} {ts ts' : List Tree}

/-! ### Trees within trees -/

mutual

/-- All trees within a tree, each before the trees within it. -/
def subtrees : Tree → List Tree
  | .node task subtasks => .node task subtasks :: subtreesAll subtasks

/-- All trees within some trees. -/
def subtreesAll : List Tree → List Tree
  | [] => []
  | t :: ts => t.subtrees ++ subtreesAll ts

end

theorem subtreesAll_eq_flatMap (ts : List Tree) : subtreesAll ts = ts.flatMap subtrees := by
  induction ts with
  | nil => rfl
  | cons t ts ih => rw [subtreesAll, ih, List.flatMap_cons]

/-- The tops of the trees within some trees are the tasks of the trees. -/
theorem map_task_subtreesAll (ts : List Tree) : (subtreesAll ts).map task = flattenAll ts := by
  induction ts using forestInduction with
  | nil => rfl
  | cons top subtasks ts ihsub ih =>
    rw [subtreesAll, subtrees, flattenAll, flatten, List.map_append, List.map_cons, ihsub, ih]
    rfl

theorem map_task_subtrees (t : Tree) : t.subtrees.map task = t.flatten := by
  obtain ⟨top, subtasks⟩ := t
  rw [subtrees, flatten, List.map_cons, map_task_subtreesAll]
  rfl

/-! ### Counting -/

theorem countAll_eq_length (ts : List Tree) : countAll ts = (flattenAll ts).length := by
  induction ts using forestInduction with
  | nil => rfl
  | cons top subtasks ts ihsub ih =>
    rw [countAll, count, flattenAll, flatten, List.length_append, List.length_cons, ihsub, ih]
    omega

theorem countAll_append (ts ts' : List Tree) :
    countAll (ts ++ ts') = countAll ts + countAll ts' := by
  simp only [countAll_eq_length, flattenAll_eq_flatMap, List.flatMap_append, List.length_append]

theorem countAll_perm (h : ts.Perm ts') : countAll ts = countAll ts' := by
  rw [countAll_eq_length, countAll_eq_length, flattenAll_eq_flatMap, flattenAll_eq_flatMap]
  exact (h.flatMap_right flatten).length_eq

/-- The loop that counts: from a stack of trees, it comes to its end after a number of rounds.  A
round takes a tree off the stack and puts its subtrees on, the last one on top. -/
inductive Counting : Nat → List Tree → Prop
  | done : Counting 0 []
  | step {n : Nat} {t : Tree} {pending : List Tree}
      (rest : Counting n (t.subtasks.reverse ++ pending)) : Counting (n + 1) (t :: pending)

/-- The loop takes one round for each task on its stack, at every depth. -/
theorem counting_stack (stack : List Tree) : Counting (countAll stack) stack := by
  generalize hn : countAll stack = n
  induction n generalizing stack with
  | zero =>
    cases stack with
    | nil => exact .done
    | cons t pending =>
      rw [countAll] at hn
      omega
  | succ n ih =>
    cases stack with
    | nil => exact absurd hn (Nat.succ_ne_zero n).symm
    | cons t pending =>
      obtain ⟨top, subtasks⟩ := t
      rw [countAll, count] at hn
      refine .step (ih _ ?_)
      rw [countAll_append, countAll_perm (List.reverse_perm _)]
      show countAll subtasks + countAll pending = n
      omega

/-- What a tree tells of its top is what is stored. -/
structure Faithful (c : Catalog) (t : Tree) : Prop where
  /-- The top is a stored task. -/
  stored : t.task ∈ c.tasks
  /-- Right below the top are its children, in ascending order. -/
  children : t.subtasks.map task = c.children t.task.id
  /-- They name the top as their parent. -/
  parent : ∀ s ∈ t.subtasks, s.task.parent = some t.task.id
  /-- The number of tasks below the top is the number of stored tasks below it. -/
  count : t.count = {d | d ∈ c.tasks ∧ Below c.tasks t.task.id d.id}.ncard
  /-- The loop that counts comes to its end, and counts so many. -/
  counting : Counting t.count t.subtasks.reverse

end Tree

/-! ### Attaching -/

/-- The loop that attaches the tasks of a pool: from a stack of tasks, it comes to its end after a
number of rounds, and has given some tasks their subtasks.  A round takes a task off the stack,
gives it its subtasks, and puts these on, the last one on top. -/
inductive Attaching (pool : List Task) : Nat → List Task → List (Task × List Task) → Prop
  | done : Attaching pool 0 [] []
  | step {n : Nat} {t : Task} {pending : List Task} {given : List (Task × List Task)}
      (rest : Attaching pool n ((Tree.childrenIn pool t.id).reverse ++ pending) given) :
      Attaching pool (n + 1) (t :: pending) ((t, Tree.childrenIn pool t.id) :: given)

namespace Catalog

variable {c : Catalog} {t : Task} {u v : Uuid}

/-- There are as many stored tasks below a task as its pre-order has. -/
theorem Forest.length_preorder (h : c.Forest) (u : Uuid) :
    (h.acyclic.preorder u).length = {d | d ∈ c.tasks ∧ Below c.tasks u d.id}.ncard := by
  have hset : {d | d ∈ c.tasks ∧ Below c.tasks u d.id} = ↑(h.acyclic.preorder u).toFinset := by
    ext d
    rw [List.coe_toFinset]
    exact (h.acyclic.mem_preorder h.ids).symm
  rw [hset, Set.ncard_coe_finset, List.toFinset_card_of_nodup (h.acyclic.nodup_preorder h.ids u)]

/-- The loop gives each task on its stack, and each task below these, its children, whatever the
order is in which it comes to them. -/
theorem Forest.attaching_stack (h : c.Forest) (stack : List Task)
    (hstack : ∀ t ∈ stack, t.id = v ∨ Below c.tasks v t.id) :
    ∃ given, Attaching (h.acyclic.preorder v)
        (stack.flatMap fun t => t :: h.acyclic.preorder t.id).length stack given ∧
      given.Perm ((stack.flatMap fun t => t :: h.acyclic.preorder t.id).map fun t =>
        (t, c.children t.id)) := by
  -- on the number of tasks to come; a round takes one of them away
  generalize hn : (stack.flatMap fun t => t :: h.acyclic.preorder t.id).length = n
  induction n generalizing stack with
  | zero =>
    cases stack with
    | nil => exact ⟨[], .done, .nil⟩
    | cons t pending =>
      rw [List.flatMap_cons, List.length_append, List.length_cons] at hn
      omega
  | succ n ih =>
    cases stack with
    | nil => exact absurd hn (Nat.succ_ne_zero n).symm
    | cons t pending =>
      obtain ⟨ht, hpending⟩ := List.forall_mem_cons.1 hstack
      have hchildren : Tree.childrenIn (h.acyclic.preorder v) t.id = c.children t.id :=
        h.childrenIn_preorder ht
      have hcome : (((c.children t.id).reverse ++ pending).flatMap fun t =>
          t :: h.acyclic.preorder t.id).Perm (h.acyclic.preorder t.id ++
            pending.flatMap fun t => t :: h.acyclic.preorder t.id) := by
        rw [List.flatMap_append, h.acyclic.preorder_eq t.id]
        exact ((List.reverse_perm _).flatMap_right _).append_right _
      rw [List.flatMap_cons, List.length_append, List.length_cons] at hn
      obtain ⟨given, hrun, hgiven⟩ := ih ((c.children t.id).reverse ++ pending) (by
        intro s hs
        rcases List.mem_append.1 hs with hs | hs
        · exact .inr (below_of_mem_childrenIn ht (List.mem_reverse.1 hs))
        · exact hpending s hs) (by
        rw [hcome.length_eq, List.length_append]
        omega)
      refine ⟨(t, c.children t.id) :: given, ?_, ?_⟩
      · rw [← hchildren] at hrun ⊢
        exact .step hrun
      · rw [List.flatMap_cons, List.cons_append, List.map_cons]
        exact (hgiven.trans (hcome.map _)).cons _

/-- With steps enough, every tree within what is assembled has the children of its top right below
the top, and is the pre-order of its top when it is written out. -/
theorem Forest.subtrees_assemble_go (h : c.Forest) (hv : t.id = v ∨ Below c.tasks v t.id)
    {depth : Nat} (hdepth : (h.acyclic.preorder t.id).length ≤ depth) :
    ∀ s ∈ (Tree.assemble.go (h.acyclic.preorder v) depth t).subtrees,
      s.subtasks.map Tree.task = c.children s.task.id ∧
        s.flatten = s.task :: h.acyclic.preorder s.task.id := by
  have hwhole : (Tree.assemble.go (h.acyclic.preorder v) depth t).flatten =
      t :: h.acyclic.preorder t.id := h.flatten_assemble_go hv hdepth
  induction depth generalizing t with
  | zero =>
    intro s hs
    obtain rfl : s = .leaf t := List.mem_singleton.1 hs
    refine ⟨?_, hwhole⟩
    -- there is no step left, but neither is there a child
    have hnone : c.children t.id = [] := by
      refine List.eq_nil_iff_forall_not_mem.2 fun r hr => ?_
      have hless := h.acyclic.length_preorder_child hr
      omega
    exact hnone.symm
  | succ depth ih =>
    intro s hs
    rw [Tree.assemble.go, Tree.subtrees, List.mem_cons, Tree.subtreesAll_eq_flatMap,
      List.flatMap_map, List.mem_flatMap] at hs
    rcases hs with rfl | ⟨r, hr, hs⟩
    · refine ⟨?_, hwhole⟩
      have htops := Tree.map_task_assemble_go (h.acyclic.preorder v) depth t
      exact htops.trans (h.childrenIn_preorder hv)
    · rw [h.childrenIn_preorder hv] at hr
      have hr' := below_of_mem_childrenIn hv hr
      have hless := h.acyclic.length_preorder_child hr
      exact ih (.inr hr') (by omega) (h.flatten_assemble_go (.inr hr') (by omega)) s hs

/-- Everything within the tree of a stored task is as it is stored. -/
theorem Forest.faithful (h : c.Forest) (ht : t ∈ c.tasks) :
    ∀ s ∈ (c.tree t).subtrees, s.Faithful c := by
  intro s hs
  have hflat := h.flatten_tree ht
  have htask : s.task ∈ (c.tree t).flatten :=
    Tree.map_task_subtrees (c.tree t) ▸ List.mem_map_of_mem hs
  rw [hflat] at htask
  rw [tree, descendants_eq_preorder h.ids h.acyclic ht, Tree.assemble] at hs
  obtain ⟨htops, hwritten⟩ := h.subtrees_assemble_go (.inl rfl) le_rfl s hs
  refine ⟨(h.acyclic.mem_cons_preorder h.ids ht htask).1, htops, ?_, ?_, ?_⟩
  · intro r hr
    have hchild : r.task ∈ c.children s.task.id := htops ▸ List.mem_map_of_mem hr
    exact (mem_childrenIn.1 hchild).2
  · rw [← h.length_preorder]
    obtain ⟨top, subtasks⟩ := s
    rw [Tree.flatten] at hwritten
    rw [Tree.count, Tree.countAll_eq_length, (List.cons.inj hwritten).2]
  · have hcount : s.count = Tree.countAll s.subtasks.reverse := by
      obtain ⟨top, subtasks⟩ := s
      exact (Tree.countAll_perm (List.reverse_perm _)).symm
    rw [hcount]
    exact Tree.counting_stack _

/-- What the loop gives to the tasks of a tree is what they have in it. -/
theorem Forest.attaching (h : c.Forest) (ht : t ∈ c.tasks) :
    ∃ given, Attaching (h.acyclic.preorder t.id) ((h.acyclic.preorder t.id).length + 1) [t] given ∧
      given.Perm ((c.tree t).subtrees.map fun s => (s.task, s.subtasks.map Tree.task)) := by
  have hhas : (c.tree t).subtrees.map (fun s => (s.task, s.subtasks.map Tree.task)) =
      (t :: h.acyclic.preorder t.id).map fun s => (s, c.children s.id) := by
    rw [← h.flatten_tree ht, ← Tree.map_task_subtrees, List.map_map]
    refine List.map_congr_left fun s hs => ?_
    rw [(h.faithful ht s hs).children]
    rfl
  have hstack : ∀ s ∈ [t], s.id = t.id ∨ Below c.tasks t.id s.id := by
    intro s hs
    rw [List.mem_singleton.1 hs]
    exact .inl rfl
  have hloop := h.attaching_stack [t] hstack
  rw [List.flatMap_singleton, List.length_cons, ← hhas] at hloop
  exact hloop

end Catalog

/-! ### Reading -/

section Reading

variable {σ : Type} [Store.Backend σ] {c : Catalog} {t : Task}

open Program

/-- A task is read with everything below it in two requests. -/
theorem Tasks.outcome_read (now : Instant) (id : Uuid) (s : σ) :
    (Tasks.read id true).outcome now s =
      follow (Store.Backend.answer now (.task id) s) fun t s' =>
        follow (Store.Backend.answer now (.descendants t.id) s') fun below s'' =>
          (.ok (.assemble t below), s'') := by
  unfold Tasks.read Tasks.expand
  rw [outcome_bind, outcome_ask]
  congr 1
  funext t s'
  rw [if_pos rfl, outcome_bind, outcome_ask]
  rfl

/-- A session answers with a stored task if it passes its check, and is refused otherwise. -/
theorem Session.answer_task (h : c.UniqueIds) (ht : t ∈ c.tasks) (opened : Database)
    (now : Instant) :
    Store.Backend.answer now (.task t.id) (Session.holding opened c) =
      (if t.errors.isEmpty then .ok t else .error (.refused "Task" t.errors),
        Session.holding opened c) := by
  refine Session.answer_eq opened (Prod.ext ?_ rfl) ?_
  · show ((Database.ofCatalog c).row t.id).bind Store.TaskRow.load = _
    rw [Database.row_ofCatalog, h.task_of_mem ht]
    exact Store.TaskRow.load_ofTask t
  · split <;> rfl

/-- A session lists what is below a stored task as its tables do. -/
theorem Session.answer_below (h : c.UniqueIds) (ht : t ∈ c.tasks) (opened : Database)
    (now : Instant) {r : Except Failure (List Task)}
    (hr : (Database.ofCatalog c).descendants t.id = r) (hfits : r ≠ .error .overflow) :
    Store.Backend.answer now (.descendants t.id) (Session.holding opened c) =
      (r, Session.holding opened c) := by
  refine Session.answer_descendants now opened c t.id ?_ hfits
  rw [Database.about, Database.row_ofCatalog, h.task_of_mem ht]
  exact hr

/-- In memory, a stored task is read as its tree. -/
theorem Catalog.Forest.outcome_read (h : c.Forest) (ht : t ∈ c.tasks) (now : Instant) :
    Store.Backend.answer now (.descendants t.id) c = (.ok (h.acyclic.preorder t.id), c) ∧
      (Tasks.read t.id true).outcome now c = (.ok (c.tree t), c) := by
  have hlisted := descendants_eq_preorder h.ids h.acyclic ht
  have hbelow : Store.Backend.answer now (.descendants t.id) c =
      (.ok (h.acyclic.preorder t.id), c) := by
    rw [answer_descendants, h.ids.about_of_mem ht, hlisted]
  refine ⟨hbelow, ?_⟩
  rw [Tasks.outcome_read, Catalog.answer_task, h.ids.task_of_mem ht, follow_ok, hbelow, follow_ok,
    tree, hlisted]

/-- In a database it is read as the same tree, if all that is read passes its check. -/
theorem Catalog.Forest.outcome_read_of_pass (h : c.Forest) (ht : t ∈ c.tasks) (opened : Database)
    (now : Instant) (hpass : ∀ d ∈ t :: h.acyclic.preorder t.id, d.errors = []) :
    Store.Backend.answer now (.descendants t.id) (Session.holding opened c) =
        (.ok (h.acyclic.preorder t.id), Session.holding opened c) ∧
      (Tasks.read t.id true).outcome now (Session.holding opened c) =
        (.ok (c.tree t), Session.holding opened c) := by
  obtain ⟨htop, hrest⟩ := List.forall_mem_cons.1 hpass
  have hbelow := Session.answer_below h.ids ht opened now
    (Database.descendants_of_pass h ht hrest) (by rintro ⟨⟩)
  refine ⟨hbelow, ?_⟩
  rw [Tasks.outcome_read, Session.answer_task h.ids ht, htop]
  show follow (.ok t, Session.holding opened c) _ = _
  rw [follow_ok, hbelow, follow_ok, tree, descendants_eq_preorder h.ids h.acyclic ht]

/-- It is refused if something that is read does not pass its check. -/
theorem Catalog.Forest.outcome_read_of_not_pass (h : c.Forest) (ht : t ∈ c.tasks)
    (opened : Database) (now : Instant)
    (hbad : ∃ d ∈ t :: h.acyclic.preorder t.id, d.errors ≠ []) :
    ∃ e, e.IsRefusal ∧ (Tasks.read t.id true).outcome now (Session.holding opened c) =
      (.error e, Session.holding opened c) := by
  obtain ⟨d, hd, hfails⟩ := hbad
  rw [Tasks.outcome_read, Session.answer_task h.ids ht]
  by_cases htop : t.errors.isEmpty = true
  · -- the task itself is read, so it is something below it that is refused
    rcases List.mem_cons.1 hd with rfl | hd
    · exact absurd (List.isEmpty_iff.1 htop) hfails
    · obtain ⟨e, hrefusal, hrefused⟩ := Database.descendants_of_not_pass h ht ⟨d, hd, hfails⟩
      have hbelow := Session.answer_below h.ids ht opened now hrefused (by
        obtain ⟨subject, errors, rfl⟩ := hrefusal
        rintro ⟨⟩)
      refine ⟨e, hrefusal, ?_⟩
      rw [if_pos htop, follow_ok, hbelow, follow_error]
  · rw [if_neg htop, follow_error]
    exact ⟨_, ⟨_, _, rfl⟩, rfl⟩

/-- **Expanding.**  In every store of tasks without cycles, a stored task is read with everything
below it: what is read, written out, is the task and then the list of what is below it, everything
within it is as it is stored, and the loop that attaches the subtasks comes to its end and gives
each task what it has in the tree.  A database reads the same if the task and everything below it
pass their checks, and is refused otherwise. -/
theorem Catalog.Forest.read_exact (h : c.Forest) (ht : t ∈ c.tasks) (opened : Database)
    (now : Instant) :
    ∃ (tree : Tree) (below : List Task),
      ((Tasks.read t.id true).outcome now c = (.ok tree, c) ∧
        Store.Backend.answer now (.descendants t.id) c = (.ok below, c)) ∧
      ((∀ d ∈ t :: below, d.errors = []) →
        (Tasks.read t.id true).outcome now (Session.holding opened c) =
            (.ok tree, Session.holding opened c) ∧
          Store.Backend.answer now (.descendants t.id) (Session.holding opened c) =
            (.ok below, Session.holding opened c)) ∧
      ((∃ d ∈ t :: below, d.errors ≠ []) → ∃ e, e.IsRefusal ∧
        (Tasks.read t.id true).outcome now (Session.holding opened c) =
          (.error e, Session.holding opened c)) ∧
      tree.flatten = t :: below ∧
      (∀ s ∈ tree.subtrees, s.Faithful c) ∧
      ∃ given, Attaching below (below.length + 1) [t] given ∧
        given.Perm (tree.subtrees.map fun s => (s.task, s.subtasks.map Tree.task)) := by
  obtain ⟨hbelow, hread⟩ := h.outcome_read ht now
  refine ⟨c.tree t, h.acyclic.preorder t.id, ⟨hread, hbelow⟩, fun hpass => ?_,
    h.outcome_read_of_not_pass ht opened now, h.flatten_tree ht, h.faithful ht, h.attaching ht⟩
  exact (h.outcome_read_of_pass ht opened now hpass).symm

/-- A task whose parent is missing is read with its subtasks all the same, those of one order as
they were added. -/
theorem Catalog.read_exact_thicket :
    thicket.Forest ∧ thicket.tasks[0] ∈ thicket.tasks ∧ ∃ tree,
      (Tasks.read ⟨2#128⟩ true).outcome ⟨6⟩ thicket = (.ok tree, thicket) ∧
      (Tasks.read ⟨2#128⟩ true).outcome ⟨6⟩ (Session.holding .empty thicket) =
        (.ok tree, Session.holding .empty thicket) ∧
      tree.flatten = thicket.tasks ∧ ∀ s ∈ tree.subtrees, s.Faithful thicket := by
  have hstored : thicket.tasks[0] ∈ thicket.tasks := by decide
  obtain ⟨tree, below, ⟨hread, hbelow⟩, hdatabase, -, hflat, hfaithful, -⟩ :=
    forest_thicket.read_exact hstored .empty ⟨6⟩
  have hanswer : Store.Backend.answer ⟨6⟩ (.descendants ⟨2#128⟩) thicket =
      (.ok [thicket.tasks[1], thicket.tasks[2], thicket.tasks[3]], thicket) := by rfl
  obtain rfl : below = [thicket.tasks[1], thicket.tasks[2], thicket.tasks[3]] :=
    Except.ok.inj (Prod.mk.inj (hbelow.symm.trans hanswer)).1
  exact ⟨forest_thicket, hstored, tree, hread, (hdatabase (by decide)).1, hflat, hfaithful⟩

end Reading

end Agenda
