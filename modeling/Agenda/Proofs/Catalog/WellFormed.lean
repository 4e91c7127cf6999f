import Agenda.Proofs.Catalog.Descent

/-!
# Well-formed catalogs

A catalog is well-formed when identifiers and project names are unique, every task belongs to a
stored project and to the project of its parent, which is stored too, and no task is below itself.
Nothing in a catalog enforces this: it is kept because each of the writes keeps it under a
condition of its own (`revise`, `without`, `withTask`, `withProject`).

In a well-formed catalog every chain of parents ends at a root (`rooted`).
-/

namespace Agenda

open Relation

/-- A rewriting of tasks that leaves their identity and their place in the tree alone. -/
structure KeepsTree (f : Task → Task) : Prop where
  id : ∀ t, (f t).id = t.id
  parent : ∀ t, (f t).parent = t.parent
  project : ∀ t, (f t).project = t.project

theorem KeepsTree.placed (now : Instant) (orders : List (Uuid × Int)) :
    KeepsTree (Task.placed now orders) :=
  ⟨Task.placed_id now orders, Task.placed_parent now orders, Task.placed_project now orders⟩

theorem KeepsTree.renamed (now : Instant) (name : Text) :
    KeepsTree fun t => { t with name := name, updated := now } :=
  ⟨fun _ => rfl, fun _ => rfl, fun _ => rfl⟩

/-- A change of one task keeps the tree if it does so where it is made. -/
theorem KeepsTree.only {f : Task → Task} (hf : KeepsTree f) (u : Uuid) :
    KeepsTree (Catalog.only u f) := by
  constructor <;> intro t <;> unfold Catalog.only <;> split
  · exact hf.id t
  · rfl
  · exact hf.parent t
  · rfl
  · exact hf.project t
  · rfl

namespace Catalog

variable {c : Catalog} {t : Task}

/-- Identifiers and project names are unique, every task lies in a stored project and below a
stored parent of the same project, and no task is below itself. -/
structure WellFormed (c : Catalog) : Prop where
  /-- No two tasks share an identifier. -/
  ids : c.UniqueIds
  /-- No two projects share an identifier. -/
  project_ids : (c.projects.map (·.id)).Nodup
  /-- No two projects share a name. -/
  project_names : (c.projects.map (·.name)).Nodup
  /-- The project of a task is stored. -/
  project_stored : ∀ t ∈ c.tasks, ∃ p ∈ c.projects, p.id = t.project
  /-- The parent of a task is stored, and belongs to the same project. -/
  parent_stored : ∀ t ∈ c.tasks, ∀ u, t.parent = some u →
    ∃ s ∈ c.tasks, s.id = u ∧ s.project = t.project
  /-- The parents of a task never lead back to it. -/
  acyclic : Acyclic c.tasks

/-- The parent of a task, if it has one, is stored. -/
def ParentStored (c : Catalog) (t : Task) : Prop :=
  ∀ u, t.parent = some u → ∃ s ∈ c.tasks, s.id = u

namespace WellFormed

theorem parentStored (h : c.WellFormed) : ∀ t ∈ c.tasks, c.ParentStored t := by
  intro t ht u hu
  obtain ⟨s, hs, hid, -⟩ := h.parent_stored t ht u hu
  exact ⟨s, hs, hid⟩

theorem empty : Catalog.empty.WellFormed where
  ids := List.nodup_nil
  project_ids := List.nodup_nil
  project_names := List.nodup_nil
  project_stored := fun _ h => nomatch h
  parent_stored := fun _ h => nomatch h
  acyclic := by
    intro u hu
    obtain ⟨t, ht, -⟩ := Below.parent hu
    cases ht

/-- **Roots.**  The parents of a task lead to a task without a parent. -/
theorem rooted (h : c.WellFormed) (ht : t ∈ c.tasks) :
    ∃ r ∈ c.tasks, r.parent = none ∧ ReflTransGen (Link c.tasks) r.id t.id := by
  -- from the roots down
  generalize hu : t.id = u
  induction u using h.acyclic.wellFounded.induction generalizing t with
  | _ u ih =>
    subst hu
    cases hp : t.parent with
    | none => exact ⟨t, ht, hp, .refl⟩
    | some v =>
      obtain ⟨s, hs, rfl, -⟩ := h.parent_stored t ht v hp
      have hlink : Link c.tasks s.id t.id := .of_mem ht hp
      obtain ⟨r, hr, hroot, hchain⟩ := ih s.id hlink hs rfl
      exact ⟨r, hr, hroot, hchain.tail hlink⟩

/-- Everything below a task is in the project of the task. -/
theorem project_of_below (h : c.WellFormed) {s : Task} (hs : s ∈ c.tasks) (ht : t ∈ c.tasks)
    (hb : Below c.tasks s.id t.id) : t.project = s.project := by
  generalize hv : t.id = v at hb
  induction hb generalizing t with
  | single hl =>
    obtain ⟨t', ht', hp, hid⟩ := hl
    obtain rfl := h.ids.eq ht' ht (hid.trans hv.symm)
    obtain ⟨s', hs', hid', hproj⟩ := h.parent_stored t' ht' _ hp
    rw [← hproj, h.ids.eq hs' hs hid']
  | tail hchain hl ih =>
    obtain ⟨t', ht', hp, hid⟩ := hl
    obtain rfl := h.ids.eq ht' ht (hid.trans hv.symm)
    obtain ⟨s', hs', hid', hproj⟩ := h.parent_stored t' ht' _ hp
    rw [← hproj, ih hs' hid']

/-! ### What each write keeps -/

theorem revise (h : c.WellFormed) {f : Task → Task} (hf : KeepsTree f) :
    (c.revise f).WellFormed where
  ids := h.ids.revise hf.id
  project_ids := h.project_ids
  project_names := h.project_names
  project_stored := by
    intro t' ht'
    obtain ⟨t, ht, rfl⟩ := List.mem_map.1 ht'
    rw [hf.project]
    exact h.project_stored t ht
  parent_stored := by
    intro t' ht' u hu
    obtain ⟨t, ht, rfl⟩ := List.mem_map.1 ht'
    rw [hf.parent] at hu
    obtain ⟨s, hs, hid, hproj⟩ := h.parent_stored t ht u hu
    refine ⟨f s, List.mem_map_of_mem hs, ?_, ?_⟩
    · rw [hf.id, hid]
    · rw [hf.project, hf.project, hproj]
  acyclic := (acyclic_map hf.id hf.parent).2 h.acyclic

/-- Tasks can be taken out together with all their children. -/
theorem without (h : c.WellFormed) {D : List Uuid}
    (hD : ∀ t ∈ c.tasks, ∀ u ∈ D, t.parent = some u → t.id ∈ D) : (c.without D).WellFormed where
  ids := h.ids.without D
  project_ids := h.project_ids
  project_names := h.project_names
  project_stored := fun t ht => h.project_stored t (mem_without.1 ht).1
  parent_stored := by
    intro t ht u hu
    obtain ⟨ht, htD⟩ := mem_without.1 ht
    obtain ⟨s, hs, rfl, hproj⟩ := h.parent_stored t ht u hu
    exact ⟨s, mem_without.2 ⟨hs, fun hsD => htD (hD t ht s.id hsD hu)⟩, rfl, hproj⟩
  acyclic := h.acyclic.mono fun _ ht => (mem_without.1 ht).1

/-- A task with a new identifier can be added below a stored task of its project, or as a root. -/
theorem withTask (h : c.WellFormed) (hnew : ∀ s ∈ c.tasks, s.id ≠ t.id)
    (hproject : ∃ p ∈ c.projects, p.id = t.project)
    (hparent : ∀ u, t.parent = some u → ∃ s ∈ c.tasks, s.id = u ∧ s.project = t.project) :
    (c.withTask t).WellFormed where
  ids := h.ids.withTask hnew
  project_ids := h.project_ids
  project_names := h.project_names
  project_stored := by
    intro s hs
    rcases List.mem_append.1 hs with hs | hs
    · exact h.project_stored s hs
    · rw [List.mem_singleton.1 hs]
      exact hproject
  parent_stored := by
    intro s hs u hu
    have hold : ∃ r ∈ c.tasks, r.id = u ∧ r.project = s.project := by
      rcases List.mem_append.1 hs with hs | hs
      · exact h.parent_stored s hs u hu
      · rw [List.mem_singleton.1 hs] at hu ⊢
        exact hparent u hu
    obtain ⟨r, hr, hid, hproj⟩ := hold
    exact ⟨r, List.mem_append_left _ hr, hid, hproj⟩
  acyclic := by
    -- parents are stored, so none of them is the new task
    refine h.acyclic.append (fun hp => ?_) (fun s hs hp => ?_)
    · obtain ⟨r, hr, hid, -⟩ := hparent _ hp
      exact hnew r hr hid
    · obtain ⟨r, hr, hid, -⟩ := h.parent_stored s hs _ hp
      exact hnew r hr hid

/-- A project with a new identifier and a new name can be added. -/
theorem withProject (h : c.WellFormed) {p : Project} (hid : ∀ q ∈ c.projects, q.id ≠ p.id)
    (hname : ∀ q ∈ c.projects, q.name ≠ p.name) :
    ({ c with projects := c.projects ++ [p] } : Catalog).WellFormed where
  ids := h.ids
  project_ids := by
    rw [List.map_append, List.nodup_append]
    refine ⟨h.project_ids, List.nodup_singleton _, ?_⟩
    rintro a ha b hb rfl
    obtain ⟨q, hq, rfl⟩ := List.mem_map.1 ha
    exact hid q hq (List.mem_singleton.1 hb)
  project_names := by
    rw [List.map_append, List.nodup_append]
    refine ⟨h.project_names, List.nodup_singleton _, ?_⟩
    rintro a ha b hb rfl
    obtain ⟨q, hq, rfl⟩ := List.mem_map.1 ha
    exact hname q hq (List.mem_singleton.1 hb)
  project_stored := by
    intro t ht
    obtain ⟨q, hq, hqt⟩ := h.project_stored t ht
    exact ⟨q, List.mem_append_left _ hq, hqt⟩
  parent_stored := h.parent_stored
  acyclic := h.acyclic

end WellFormed

end Catalog

end Agenda
