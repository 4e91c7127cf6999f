import Agenda.Proofs.Catalog.Dense

/-!
# Catalogs that look alike

What an operation does depends on part of the catalog only, and of the tasks there only some of
their fields matter.  `Sight` is a function on tasks that hides some fields: it leaves the tree
alone, and tasks that look alike through it look alike when the same is written to both.
`c.seen S b` is what is seen through `b` of the tasks in the projects of a set `S`, and
`Alike S b c d` says that there is the same to see in both catalogs.

A task of the one catalog in one of the projects has a twin in the other, the task with its
identifier (`Alike.exists_twin`, `Alike.twins`).  In well-formed catalogs the siblings of twins look
alike (`Twins.map_members`), and so does the order in which they stand if orders are not hidden
(`Twins.map_ranked`); and what is below the one is below the other (`Twins.below_iff`).  All of this
rests on the projects: neither parents nor children nor siblings of a task lie in another one.

Catalogs still look alike after the same has been written to twins (`Alike.revise`), or twins have
been taken out (`Alike.without`).
-/

namespace Agenda

open Relation

/-! ### Sights -/

/-- A function that hides some fields of tasks, but not their place in the tree.  Tasks that look
alike still do so after the same has been written to both. -/
structure Sight (b : Task → Task) : Prop extends KeepsTree b where
  name : ∀ {s t : Task}, b s = b t → ∀ n, b { s with name := n } = b { t with name := n }
  status : ∀ {s t : Task}, b s = b t → ∀ st, b { s with status := st } = b { t with status := st }
  order : ∀ {s t : Task}, b s = b t → ∀ o, b { s with order := o } = b { t with order := o }
  updated : ∀ {s t : Task}, b s = b t → ∀ n, b { s with updated := n } = b { t with updated := n }

namespace Sight

variable {b : Task → Task} {s t : Task}

/-- Nothing is hidden. -/
theorem whole : Sight id where
  id _ := rfl
  parent _ := rfl
  project _ := rfl
  name h n := congrArg (fun t : Task => { t with name := n }) h
  status h st := congrArg (fun t : Task => { t with status := st }) h
  order h o := congrArg (fun t : Task => { t with order := o }) h
  updated h n := congrArg (fun t : Task => { t with updated := n }) h

theorem id_eq (hb : Sight b) (h : b s = b t) : s.id = t.id := by
  rw [← hb.toKeepsTree.id s, h, hb.toKeepsTree.id]

theorem parent_eq (hb : Sight b) (h : b s = b t) : s.parent = t.parent := by
  rw [← hb.parent s, h, hb.parent]

theorem project_eq (hb : Sight b) (h : b s = b t) : s.project = t.project := by
  rw [← hb.project s, h, hb.project]

theorem group_eq (hb : Sight b) (h : b s = b t) : s.group = t.group := by
  rw [← hb.group s, h, hb.group]

/-- Tasks that look alike still do so after the same places have been written to both. -/
theorem placed (hb : Sight b) (h : b s = b t) (now : Instant) (orders : List (Uuid × Int)) :
    b (s.placed now orders) = b (t.placed now orders) := by
  induction orders generalizing s t with
  | nil => exact h
  | cons o orders ih =>
    have hid := hb.id_eq h
    rw [Task.placed_cons, Task.placed_cons]
    by_cases ho : s.id = o.1
    · rw [if_pos ho, if_pos (hid ▸ ho)]
      exact ih (hb.updated (hb.order h o.2) now)
    · rw [if_neg ho, if_neg (hid ▸ ho)]
      exact ih h

end Sight

/-- Orders are not hidden. -/
def ShowsOrder (b : Task → Task) : Prop := ∀ t, (b t).order = t.order

/-- Orders and times of change are hidden. -/
def HidesOrder (b : Task → Task) : Prop :=
  ∀ t order updated, b { t with order := order, updated := updated } = b t

/-- The status is not hidden. -/
def ShowsStatus (b : Task → Task) : Prop := ∀ t, (b t).status = t.status

/-- The status and times of change are hidden. -/
def HidesStatus (b : Task → Task) : Prop :=
  ∀ t status updated, b { t with status := status, updated := updated } = b t

section Shown

variable {b : Task → Task} {s t : Task}

theorem ShowsOrder.order_eq (hb : ShowsOrder b) (h : b s = b t) : s.order = t.order := by
  rw [← hb s, h, hb]

theorem ShowsStatus.status_eq (hb : ShowsStatus b) (h : b s = b t) : s.status = t.status := by
  rw [← hb s, h, hb]

/-- Where orders are hidden, no new place is seen. -/
theorem HidesOrder.placed (hb : HidesOrder b) (now : Instant) (orders : List (Uuid × Int))
    (t : Task) : b (t.placed now orders) = b t := by
  obtain ⟨order, updated, h⟩ := t.placed_eq now orders
  rw [h, hb]

end Shown

/-! ### What is seen of a catalog -/

/-- Rewritings look alike if they do so for each pair of tasks that look alike. -/
theorem map_comp_congr {α β : Type} {b : α → β} {f g : α → α} {xs ys : List α}
    (h : xs.map b = ys.map b)
    (hfg : ∀ x ∈ xs, ∀ y ∈ ys, b x = b y → b (f x) = b (g y)) :
    xs.map (fun x => b (f x)) = ys.map fun y => b (g y) := by
  induction xs generalizing ys with
  | nil => rw [List.map_eq_nil_iff.1 h.symm, List.map_nil, List.map_nil]
  | cons x xs ih =>
    cases ys with
    | nil => cases h
    | cons y ys =>
      obtain ⟨hxy, hrest⟩ := List.cons.inj h
      rw [List.map_cons, List.map_cons, hfg x List.mem_cons_self y List.mem_cons_self hxy,
        ih hrest fun x hx y hy => hfg x (List.mem_cons_of_mem _ hx) y (List.mem_cons_of_mem _ hy)]

namespace Catalog

variable {c d : Catalog} {S : Uuid → Bool} {b : Task → Task} {s t u : Task} {g : Group}

/-- What is seen of the tasks in some projects. -/
def seen (S : Uuid → Bool) (b : Task → Task) (c : Catalog) : List Task :=
  (c.tasks.filter (S ·.project)).map b

theorem mem_seen : t ∈ c.seen S b ↔ ∃ s ∈ c.tasks, S s.project = true ∧ b s = t := by
  simp [seen, and_assoc]

theorem seen_withTask (t : Task) (c : Catalog) :
    (c.withTask t).seen S b = c.seen S b ++ if S t.project then [b t] else [] := by
  rw [seen, withTask_tasks, List.filter_append, List.map_append, seen]
  by_cases ht : S t.project <;> simp [ht]

theorem seen_revise {f : Task → Task} (hf : KeepsTree f) (c : Catalog) :
    (c.revise f).seen S b = (c.tasks.filter (S ·.project)).map fun t => b (f t) := by
  have hfilter : (c.tasks.map f).filter (S ·.project) = (c.tasks.filter (S ·.project)).map f := by
    rw [List.filter_map]
    exact congrArg _ (List.filter_congr fun t _ => congrArg S (hf.project t))
  rw [seen, revise_tasks, hfilter, List.map_map]
  rfl

theorem seen_without (hb : ∀ t, (b t).id = t.id) (D : List Uuid) (c : Catalog) :
    (c.without D).seen S b = (c.seen S b).filter (·.id ∉ D) := by
  rw [seen, seen, List.filter_map, without, List.filter_filter]
  refine congrArg _ ?_
  rw [List.filter_filter]
  refine List.filter_congr fun t _ => ?_
  rw [Function.comp_apply, hb]
  exact Bool.and_comm _ _

/-- What is seen of a group that lies in the projects. -/
theorem map_members_eq (hb : Sight b) (hg : ∀ s ∈ c.tasks, s.group = g → S s.project) :
    (c.members g).map b = (c.seen S b).filter (·.group = g) := by
  rw [seen, List.filter_map, members, List.filter_filter]
  refine congrArg _ (List.filter_congr fun t ht => ?_)
  rw [Function.comp_apply, hb.group, Bool.eq_iff_iff, Bool.and_eq_true, decide_eq_true_eq]
  exact ⟨fun htg => ⟨htg, hg t ht htg⟩, fun h => h.1⟩

theorem map_ranked_eq (hshows : ShowsOrder b) (c : Catalog) (g : Group) :
    (c.ranked g).map b = sortOn (·.order) ((c.members g).map b) := by
  have hkey : (fun t : Task => (b t).order) = fun t => t.order := funext hshows
  rw [sortOn_map, hkey]
  rfl

/-- Children are in the project of their parent. -/
theorem WellFormed.project_of_child (h : c.WellFormed) (hs : s ∈ c.tasks) (ht : t ∈ c.tasks)
    (hparent : s.parent = some t.id) : s.project = t.project :=
  h.project_of_below ht hs (.child hs hparent)

/-- Siblings are in one project: those of a stored task, and those that a new task would get. -/
theorem WellFormed.project_of_group (h : c.WellFormed)
    (hparent : ∀ v, t.parent = some v → ∃ p ∈ c.tasks, p.id = v ∧ p.project = t.project)
    (hs : s ∈ c.tasks) (hgroup : s.group = t.group) : s.project = t.project := by
  cases hp : t.parent with
  | none =>
    rw [Task.group_eq_roots.2 ⟨rfl, hp⟩] at hgroup
    exact (Task.group_eq_roots.1 hgroup).1
  | some v =>
    rw [Task.group_eq_children.2 hp] at hgroup
    obtain ⟨p, hpmem, rfl, hproject⟩ := hparent v hp
    rw [← hproject]
    exact h.project_of_child hs hpmem (Task.group_eq_children.1 hgroup)

/-! ### Twins -/

/-- In both catalogs there is the same to see of the tasks in some projects. -/
structure Alike (S : Uuid → Bool) (b : Task → Task) (c d : Catalog) : Prop where
  projects : c.projects = d.projects
  tasks : c.seen S b = d.seen S b

/-- Tasks of two catalogs, in one of the projects, that look alike. -/
structure Twins (S : Uuid → Bool) (b : Task → Task) (c d : Catalog) (t u : Task) : Prop where
  left : t ∈ c.tasks
  right : u ∈ d.tasks
  inside : S t.project
  same : b t = b u

namespace Alike

theorem refl (S : Uuid → Bool) (b : Task → Task) (c : Catalog) : Alike S b c c := ⟨rfl, rfl⟩

theorem symm (h : Alike S b c d) : Alike S b d c := ⟨h.projects.symm, h.tasks.symm⟩

theorem trans {e : Catalog} (h : Alike S b c d) (h' : Alike S b d e) : Alike S b c e :=
  ⟨h.projects.trans h'.projects, h.tasks.trans h'.tasks⟩

/-- A task in one of the projects has a twin. -/
theorem exists_twin (h : Alike S b c d) (ht : t ∈ c.tasks) (hS : S t.project) :
    ∃ u, Twins S b c d t u := by
  have hseen : b t ∈ d.seen S b := h.tasks ▸ mem_seen.2 ⟨t, ht, hS, rfl⟩
  obtain ⟨u, hu, -, hut⟩ := mem_seen.1 hseen
  exact ⟨u, ht, hu, hS, hut.symm⟩

/-- The twin is known by its identifier. -/
theorem twins (h : Alike S b c d) (hb : Sight b) (hids : d.UniqueIds) (ht : t ∈ c.tasks)
    (hS : S t.project) (hu : u ∈ d.tasks) (hid : u.id = t.id) : Twins S b c d t u := by
  obtain ⟨v, hv⟩ := h.exists_twin ht hS
  rw [hids.eq hu hv.right (hid.trans (hb.id_eq hv.same))]
  exact hv

/-- Groups that lie in the projects look alike. -/
theorem map_members (h : Alike S b c d) (hb : Sight b)
    (hg : ∀ s ∈ c.tasks, s.group = g → S s.project)
    (hg' : ∀ s ∈ d.tasks, s.group = g → S s.project) :
    (c.members g).map b = (d.members g).map b := by
  rw [map_members_eq hb hg, map_members_eq hb hg', h.tasks]

theorem length_members (h : Alike S b c d) (hb : Sight b)
    (hg : ∀ s ∈ c.tasks, s.group = g → S s.project)
    (hg' : ∀ s ∈ d.tasks, s.group = g → S s.project) :
    (c.members g).length = (d.members g).length := by
  have hlength := congrArg List.length (h.map_members hb hg hg')
  rwa [List.length_map, List.length_map] at hlength

/-! ### Writes -/

/-- Rewritings that look alike. -/
theorem revise (h : Alike S b c d) {f f' : Task → Task} (hf : KeepsTree f) (hf' : KeepsTree f')
    (hsame : ∀ s r, Twins S b c d s r → b (f s) = b (f' r)) :
    Alike S b (c.revise f) (d.revise f') := by
  refine ⟨h.projects, ?_⟩
  rw [seen_revise hf, seen_revise hf']
  refine map_comp_congr h.tasks fun s hs r hr hsr => ?_
  obtain ⟨hs, hS⟩ := List.mem_filter.1 hs
  exact hsame s r ⟨hs, (List.mem_filter.1 hr).1, hS, hsr⟩

/-- The same change is made to the tasks with one identifier. -/
theorem only (h : Alike S b c d) (hb : Sight b) (v : Uuid) {f : Task → Task} (hf : KeepsTree f)
    (hsame : ∀ {s r}, b s = b r → b (f s) = b (f r)) :
    Alike S b (c.revise (only v f)) (d.revise (only v f)) := by
  refine h.revise (hf.only v) (hf.only v) fun s r hsr => ?_
  have hid := hb.id_eq hsr.same
  unfold Catalog.only
  by_cases hs : s.id = v
  · rw [if_pos hs, if_pos (hid ▸ hs)]
    exact hsame hsr.same
  · rw [if_neg hs, if_neg (hid ▸ hs)]
    exact hsr.same

/-- Twins are taken out. -/
theorem without (h : Alike S b c d) (hb : Sight b) {D E : List Uuid}
    (hDE : ∀ s r, Twins S b c d s r → (s.id ∈ D ↔ r.id ∈ E)) :
    Alike S b (c.without D) (d.without E) := by
  refine ⟨h.projects, ?_⟩
  rw [seen_without hb.toKeepsTree.id, seen_without hb.toKeepsTree.id, ← h.tasks]
  refine List.filter_congr fun x hx => ?_
  obtain ⟨s, hs, hS, rfl⟩ := mem_seen.1 hx
  obtain ⟨r, hr⟩ := h.exists_twin hs hS
  rw [decide_eq_decide, hb.toKeepsTree.id]
  refine not_congr ?_
  rw [hDE s r hr, hb.id_eq hr.same]

/-- The same task is added. -/
theorem withTask (h : Alike S b c d) (t : Task) : Alike S b (c.withTask t) (d.withTask t) := by
  refine ⟨h.projects, ?_⟩
  rw [seen_withTask, seen_withTask, h.tasks]

/-- A rewriting that is not seen of any task in the projects. -/
theorem of_revise {f : Task → Task} (hf : KeepsTree f)
    (h : ∀ t ∈ c.tasks, S t.project → b (f t) = b t) : Alike S b c (c.revise f) := by
  refine ⟨rfl, ?_⟩
  rw [seen_revise hf, seen]
  refine List.map_congr_left fun t ht => ?_
  obtain ⟨ht, hS⟩ := List.mem_filter.1 ht
  exact (h t ht hS).symm

/-- No task in the projects is taken out. -/
theorem of_without {D : List Uuid} (h : ∀ t ∈ c.tasks, S t.project → t.id ∉ D) :
    Alike S b c (c.without D) := by
  refine ⟨rfl, ?_⟩
  rw [seen, seen, Catalog.without, List.filter_filter]
  refine congrArg _ (List.filter_congr fun t ht => ?_)
  rw [Bool.eq_iff_iff, Bool.and_eq_true, decide_eq_true_eq]
  exact ⟨fun hS => ⟨hS, h t ht hS⟩, fun hboth => hboth.1⟩

end Alike

namespace Twins

theorem symm (htu : Twins S b c d t u) (hb : Sight b) : Twins S b d c u t where
  left := htu.right
  right := htu.left
  inside := hb.project_eq htu.same ▸ htu.inside
  same := htu.same.symm

/-- The siblings of a task in one of the projects are in the projects. -/
theorem siblings_inside (hc : c.WellFormed) (ht : t ∈ c.tasks) (hS : S t.project) :
    ∀ s ∈ c.tasks, s.group = t.group → S s.project := by
  intro s hs hg
  rw [hc.project_of_group (hc.parent_stored t ht) hs hg]
  exact hS

variable (htu : Twins S b c d t u) (h : Alike S b c d) (hb : Sight b) (hc : c.WellFormed)
  (hd : d.WellFormed)

include htu h hb hc hd in
/-- **Siblings** of twins look alike. -/
theorem map_members : (c.members t.group).map b = (d.members u.group).map b := by
  have hin' := siblings_inside hd htu.right (htu.symm hb).inside
  rw [← hb.group_eq htu.same] at hin' ⊢
  exact h.map_members hb (siblings_inside hc htu.left htu.inside) hin'

include htu h hb hc hd in
/-- **Siblings in order** look alike if orders are not hidden. -/
theorem map_ranked (hshows : ShowsOrder b) :
    (c.ranked t.group).map b = (d.ranked u.group).map b := by
  rw [map_ranked_eq hshows, map_ranked_eq hshows, htu.map_members h hb hc hd]

include htu h hb hc hd in
theorem length_ranked_eq : (c.ranked t.group).length = (d.ranked u.group).length := by
  have hlength := congrArg List.length (htu.map_members h hb hc hd)
  rw [List.length_map, List.length_map] at hlength
  rw [length_ranked, length_ranked, hlength]

include htu h hb hc in
/-- What is below a task is below its twin. -/
theorem below {v : Uuid} (hbelow : Below c.tasks t.id v) : Below d.tasks u.id v := by
  -- link by link: the lower end of each link is in the project of the task
  have hlink {w v : Uuid} (hv : Below c.tasks t.id v) (hl : Link c.tasks w v) :
      Link d.tasks w v := by
    obtain ⟨s, hs, hparent, rfl⟩ := hl
    have hS : S s.project := by
      rw [hc.project_of_below htu.left hs hv]
      exact htu.inside
    obtain ⟨r, hr⟩ := h.exists_twin hs hS
    exact ⟨r, hr.right, (hb.parent_eq hr.same).symm.trans hparent, (hb.id_eq hr.same).symm⟩
  rw [← hb.id_eq htu.same]
  induction hbelow with
  | single hl => exact .single (hlink (.single hl) hl)
  | tail hchain hl ih => exact ih.tail (hlink (hchain.tail hl) hl)

include htu h hb hc hd in
/-- **Below twins** is the same. -/
theorem below_iff {v : Uuid} : Below c.tasks t.id v ↔ Below d.tasks u.id v :=
  ⟨htu.below h hb hc, (htu.symm hb).below h.symm hb hd⟩

end Twins

end Catalog

end Agenda
