import Agenda.Proofs.Catalog.Preorder
import Agenda.Proofs.Catalog.Sound

/-!
# The trees of a catalog

The tree of a stored task is put together from the flat list of the tasks below it, by the parents
that they name; the forest of a project is the list of the trees of its root tasks.

**Nothing is lost and nothing comes twice.**  Without cycles, the tree of a task, written out with
each task before the tasks below it, is the task followed by its pre-order (`Forest.flatten_tree`).
In a sound catalog the forest of a project is a succession of all tasks of the project
(`Sound.perm_flatten_forest`), and at every level of the trees siblings stand in the order
`0, 1, 2, …` and name the task above them as their parent (`Sound.each_tree`).

What makes the difference between the list below a task and all tasks is that the list lacks
siblings elsewhere; of the children of a task in the tree it lacks none
(`Forest.childrenIn_preorder`).
-/

namespace Agenda

open Relation

/-! ### Trees -/

namespace Tree

variable {P : Task → List Task → Prop}

mutual

/-- A property that each task of a tree has together with the tasks right below it. -/
def Each (P : Task → List Task → Prop) : Tree → Prop
  | .node task subtasks => P task (subtasks.map Tree.task) ∧ EachAll P subtasks

/-- A property that each task of some trees has together with the tasks right below it. -/
def EachAll (P : Task → List Task → Prop) : List Tree → Prop
  | [] => True
  | t :: ts => t.Each P ∧ EachAll P ts

end

theorem eachAll_iff {ts : List Tree} : EachAll P ts ↔ ∀ t ∈ ts, t.Each P := by
  induction ts with
  | nil => exact iff_of_true trivial fun _ h => nomatch h
  | cons t ts ih => rw [EachAll, ih, List.forall_mem_cons]

theorem flattenAll_eq_flatMap (ts : List Tree) : flattenAll ts = ts.flatMap flatten := by
  induction ts with
  | nil => rfl
  | cons t ts ih => rw [flattenAll, ih, List.flatMap_cons]

theorem task_assemble_go (pool : List Task) (depth : Nat) (root : Task) :
    (assemble.go pool depth root).task = root := by
  cases depth <;> rfl

/-- The tops of trees that are made for tasks are these tasks. -/
theorem map_task_map {f : Task → Tree} (hf : ∀ t, (f t).task = t) (ts : List Task) :
    (ts.map f).map task = ts := by
  rw [List.map_map]
  conv_rhs => rw [← List.map_id ts]
  exact List.map_congr_left fun t _ => hf t

/-- Right below the top of what is assembled there are the children of the top in the pool. -/
theorem map_task_assemble_go (pool : List Task) (depth : Nat) (root : Task) :
    (assemble.go pool (depth + 1) root).subtasks.map task = childrenIn pool root.id :=
  map_task_map (task_assemble_go pool depth) _

/-- What every task has together with its children in the pool, it has in an assembled tree; where
the depth is used up, there are no children. -/
theorem each_assemble_go {pool : List Task} {P : Task → List Task → Prop}
    (hleaf : ∀ t, P t []) (hP : ∀ t, P t (childrenIn pool t.id)) (depth : Nat) (root : Task) :
    (assemble.go pool depth root).Each P := by
  induction depth generalizing root with
  | zero => exact ⟨hleaf root, trivial⟩
  | succ depth ih =>
    have htops := map_task_assemble_go pool depth root
    rw [assemble.go, subtasks] at htops
    rw [assemble.go, Each, htops]
    refine ⟨hP root, eachAll_iff.2 fun t ht => ?_⟩
    obtain ⟨s, -, rfl⟩ := List.mem_map.1 ht
    exact ih s

end Tree

/-- A task with the tasks right below it: they name it as their parent, and they stand in the order
`0, 1, 2, …`. -/
def Task.Heads (t : Task) (children : List Task) : Prop :=
  (∀ s ∈ children, s.parent = some t.id) ∧ children.map (·.order) = places children.length

namespace Catalog

variable {c : Catalog} {s t : Task} {u v : Uuid}

/-- The tree of a task. -/
def tree (c : Catalog) (t : Task) : Tree := .assemble t (c.descendants t.id)

/-- The trees of a project. -/
def forest (c : Catalog) (project : Uuid) : List Tree := (c.roots project).map c.tree

theorem task_tree (c : Catalog) (t : Task) : (c.tree t).task = t :=
  Tree.task_assemble_go _ _ t

/-- The tops of the trees of a project are its root tasks. -/
theorem map_task_forest (c : Catalog) (project : Uuid) :
    (c.forest project).map Tree.task = c.roots project :=
  Tree.map_task_map (task_tree c) _

theorem mem_roots {project : Uuid} :
    t ∈ c.roots project ↔ t ∈ c.tasks ∧ t.project = project ∧ t.parent = none := by
  rw [roots_eq_ranked, mem_ranked, Task.group_eq_roots]

theorem mem_tasksOf {project : Uuid} :
    t ∈ c.tasksOf project ↔ t ∈ c.tasks ∧ t.project = project := by
  rw [tasksOf, byAge, mem_sortOn, List.mem_filter, decide_eq_true_eq]

/-! ### One tree -/

namespace Forest

/-- The pre-order below a task has all children of the tasks in it, and in the same order. -/
theorem childrenIn_preorder (h : c.Forest) (hu : u = v ∨ Below c.tasks v u) :
    Tree.childrenIn (h.acyclic.preorder v) u = Tree.childrenIn c.tasks u := by
  rw [Tree.childrenIn, h.acyclic.filter_preorder h.ids hu]
  exact sortOn_sortOn _ _

/-- No task in a pre-order names a task as its parent that is outside. -/
theorem childrenIn_preorder_of_not (h : c.Forest) (hu : ¬ (u = v ∨ Below c.tasks v u)) :
    Tree.childrenIn (h.acyclic.preorder v) u = [] := by
  rw [Tree.childrenIn, h.acyclic.filter_preorder_of_not h.ids hu]
  rfl

/-- With steps enough, what is assembled from a pre-order is the pre-order again. -/
theorem flatten_assemble_go (h : c.Forest) (hv : t.id = v ∨ Below c.tasks v t.id) {depth : Nat}
    (hdepth : (h.acyclic.preorder t.id).length ≤ depth) :
    (Tree.assemble.go (h.acyclic.preorder v) depth t).flatten =
      t :: h.acyclic.preorder t.id := by
  induction depth generalizing t with
  | zero =>
    rw [List.length_eq_zero_iff.1 (Nat.le_zero.1 hdepth)]
    rfl
  | succ depth ih =>
    rw [Tree.assemble.go, h.childrenIn_preorder hv, Tree.flatten, Tree.flattenAll_eq_flatMap,
      List.flatMap_map, h.acyclic.preorder_eq t.id]
    refine congrArg _ (List.flatMap_congr fun s hs => ?_)
    have hless := h.acyclic.length_preorder_child hs
    exact ih (.inr (below_of_mem_childrenIn hv hs)) (by omega)

/-- **The tree of a task**, written out, is the task and everything below it in pre-order. -/
theorem flatten_tree (h : c.Forest) (ht : t ∈ c.tasks) :
    (c.tree t).flatten = t :: h.acyclic.preorder t.id := by
  rw [tree, descendants_eq_preorder h.ids h.acyclic ht, Tree.assemble]
  exact h.flatten_assemble_go (.inl rfl) le_rfl

end Forest

namespace Sound

/-- **Levels.**  Everywhere in the tree of a task, siblings stand in the order `0, 1, 2, …` below
the parent that they name. -/
theorem each_tree (h : c.Sound) (ht : t ∈ c.tasks) : (c.tree t).Each Task.Heads := by
  rw [tree, descendants_eq_preorder h.wellFormed.ids h.wellFormed.acyclic ht, Tree.assemble]
  refine Tree.each_assemble_go (fun s => ⟨(fun _ hs => nomatch hs), rfl⟩) (fun s => ?_) _ t
  refine ⟨fun r hr => (mem_childrenIn.1 hr).2, ?_⟩
  by_cases hs : s.id = t.id ∨ Below c.tasks t.id s.id
  · rw [h.wellFormed.forest.childrenIn_preorder hs]
    have hgroup : Tree.childrenIn c.tasks s.id = c.ranked (.children s.id) :=
      c.children_eq_ranked s.id
    rw [hgroup]
    exact h.dense.map_order_ranked _
  · rw [h.wellFormed.forest.childrenIn_preorder_of_not hs]
    rfl

/-! ### Forests -/

/-- The forest of a project, written out: each root task, followed by its pre-order. -/
theorem flatten_forest (h : c.Sound) (project : Uuid) :
    Tree.flattenAll (c.forest project) =
      (c.roots project).flatMap fun t => t :: h.wellFormed.acyclic.preorder t.id := by
  rw [Tree.flattenAll_eq_flatMap, forest, List.flatMap_map]
  exact List.flatMap_congr fun t ht => h.wellFormed.forest.flatten_tree (mem_roots.1 ht).1

/-- The forest of a project has the tasks of the project. -/
theorem mem_flatten_forest (h : c.Sound) {project : Uuid} :
    t ∈ Tree.flattenAll (c.forest project) ↔ t ∈ c.tasks ∧ t.project = project := by
  have hwf := h.wellFormed
  rw [h.flatten_forest, List.mem_flatMap]
  constructor
  · rintro ⟨r, hr, ht⟩
    obtain ⟨hstored, rfl, -⟩ := mem_roots.1 hr
    obtain ⟨ht, hid | hbelow⟩ := hwf.acyclic.mem_cons_preorder hwf.ids hstored ht
    · exact ⟨ht, congrArg Task.project (hwf.ids.eq ht hstored hid)⟩
    · exact ⟨ht, hwf.project_of_below hstored ht hbelow⟩
  · rintro ⟨ht, rfl⟩
    -- every task is a root task or below one
    obtain ⟨r, hr, hroot, hchain⟩ := hwf.rooted ht
    rcases reflTransGen_iff_eq_or_transGen.1 hchain with hid | hbelow
    · obtain rfl := hwf.ids.eq ht hr hid
      exact ⟨t, mem_roots.2 ⟨ht, rfl, hroot⟩, List.mem_cons_self⟩
    · exact ⟨r, mem_roots.2 ⟨hr, (hwf.project_of_below hr ht hbelow).symm, hroot⟩,
        List.mem_cons_of_mem _ ((hwf.acyclic.mem_preorder hwf.ids).2 ⟨ht, hbelow⟩)⟩

/-- No task comes twice in the forest of a project. -/
theorem nodup_flatten_forest (h : c.Sound) (project : Uuid) :
    (Tree.flattenAll (c.forest project)).Nodup := by
  have hids := h.wellFormed.ids
  have hacyclic := h.wellFormed.acyclic
  -- nothing is above a root task
  have hroot : ∀ {r : Task} {u : Uuid}, r ∈ c.tasks → r.parent = none → ¬ Below c.tasks u r.id := by
    intro r u hr hnone hbelow
    obtain ⟨r', hr', hid, w, hw, -⟩ := hbelow.parent
    rw [hids.eq hr' hr hid, hnone] at hw
    cases hw
  have hroots : (c.roots project).Nodup := by
    rw [roots_eq_ranked]
    exact List.Nodup.of_map _ (hids.nodup_ranked _)
  rw [h.flatten_forest, List.nodup_flatMap]
  constructor
  · intro r hr
    exact List.nodup_cons.2 ⟨fun hmem => hacyclic r.id ((hacyclic.mem_preorder hids).1 hmem).2,
      hacyclic.nodup_preorder hids r.id⟩
  · refine hroots.pairwise_of_forall_ne fun r hr r' hr' hne x hx hx' => ?_
    obtain ⟨hr, -, hnone⟩ := mem_roots.1 hr
    obtain ⟨hr', -, hnone'⟩ := mem_roots.1 hr'
    obtain ⟨hx, hxr⟩ := hacyclic.mem_cons_preorder hids hr hx
    obtain ⟨-, hxr'⟩ := hacyclic.mem_cons_preorder hids hr' hx'
    rcases hxr with hid | hbelow <;> rcases hxr' with hid' | hbelow'
    · exact hne (hids.eq hr hr' (hid.symm.trans hid'))
    · exact hroot hr hnone (hid ▸ hbelow')
    · exact hroot hr' hnone' (hid' ▸ hbelow)
    · rcases below_linear hids hbelow hbelow' with hid | habove | habove
      · exact hne (hids.eq hr hr' hid)
      · exact hroot hr' hnone' habove
      · exact hroot hr hnone habove

/-- No task comes twice among the tasks of a project. -/
theorem nodup_tasksOf (h : c.Sound) (project : Uuid) : (c.tasksOf project).Nodup :=
  (perm_sortOn _ _).nodup_iff.2 ((List.Nodup.of_map _ h.wellFormed.ids).filter _)

/-- **Forests are complete.**  The forest of a project, written out, is a succession of the tasks
of the project. -/
theorem perm_flatten_forest (h : c.Sound) (project : Uuid) :
    (Tree.flattenAll (c.forest project)).Perm (c.tasksOf project) := by
  rw [List.perm_ext_iff_of_nodup (h.nodup_flatten_forest project) (h.nodup_tasksOf project)]
  exact fun t => h.mem_flatten_forest.trans mem_tasksOf.symm

/-- **Projects are complete.**  The tasks of all projects together are all tasks. -/
theorem perm_tasksOf (h : c.Sound) :
    (byAge c.tasks).Perm (c.projects.flatMap fun p => c.tasksOf p.id) := by
  have hprojects : (c.projects.map (·.id)).Nodup := h.wellFormed.project_ids
  have hnd : (c.projects.flatMap fun p => c.tasksOf p.id).Nodup := by
    refine List.nodup_flatMap.2 ⟨fun p _ => h.nodup_tasksOf p.id, ?_⟩
    refine (List.Nodup.of_map _ hprojects).pairwise_of_forall_ne fun p hp q hq hne t ht ht' => ?_
    have hid : p.id = q.id := (mem_tasksOf.1 ht).2.symm.trans (mem_tasksOf.1 ht').2
    exact hne (List.inj_on_of_nodup_map hprojects hp hq hid)
  have hall : (byAge c.tasks).Nodup :=
    (perm_sortOn _ _).nodup_iff.2 (List.Nodup.of_map _ h.wellFormed.ids)
  rw [List.perm_ext_iff_of_nodup hall hnd]
  intro t
  rw [byAge, mem_sortOn, List.mem_flatMap]
  constructor
  · intro ht
    obtain ⟨p, hp, hid⟩ := h.wellFormed.project_stored t ht
    exact ⟨p, hp, mem_tasksOf.2 ⟨ht, hid.symm⟩⟩
  · rintro ⟨p, -, ht⟩
    exact (mem_tasksOf.1 ht).1

end Sound

end Catalog

end Agenda
