import Agenda.Proofs.Engine.Statuses
import Agenda.Proofs.Operation.Effect

/-!
# Closed catalogs

A catalog is closed when it is well-formed and the children of completed tasks are completed; then
everything below a completed task is completed (`Closed.below`).

Of all that an operation can do, one thing opens a closed catalog: a task is created below a
completed one (`Effect.closed_iff`).  Giving a status to tasks keeps it closed, whichever they are
(`Closed.given`): by the rules for what becomes of statuses, a task that is done has its children
done, and a parent is open if a child of it is.
-/

namespace Agenda

variable {c c' : Catalog} {s t p : Task} {on : Occasion} {op : Operation}

/-- The parent of the task that an operation creates. -/
def Operation.newParent? : Operation → Option Uuid
  | .createTask _ _ parent => parent
  | _ => none

/-- The operation creates a task below a completed one. -/
def Operation.CreatesBelowCompleted (c : Catalog) (op : Operation) : Prop :=
  ∃ p ∈ c.tasks, op.newParent? = some p.id ∧ p.status = .completed

instance (c : Catalog) (op : Operation) : Decidable (op.CreatesBelowCompleted c) :=
  inferInstanceAs (Decidable (∃ p ∈ c.tasks, op.newParent? = some p.id ∧ p.status = .completed))

namespace Catalog

/-- A well-formed catalog in which the children of completed tasks are completed. -/
structure Closed (c : Catalog) : Prop where
  wellFormed : c.WellFormed
  /-- A child of a completed task is completed. -/
  children : ∀ p ∈ c.tasks, p.status = .completed → ∀ t ∈ c.tasks, t.parent = some p.id →
    t.status = .completed

namespace Closed

theorem empty : Catalog.empty.Closed := ⟨.empty, fun _ h => nomatch h⟩

/-- **Downwards.**  In a closed catalog everything below a completed task is completed. -/
theorem below (h : c.Closed) (hp : p ∈ c.tasks) (hcompleted : p.status = .completed)
    (ht : t ∈ c.tasks) (hbelow : Below c.tasks p.id t.id) : t.status = .completed :=
  hbelow.inherits h.wellFormed.ids h.children hp hcompleted ht

/-! ### What keeps a catalog closed -/

/-- A rewriting that leaves the tree and the statuses alone. -/
theorem revise (h : c.Closed) {f : Task → Task} (hf : KeepsTree f)
    (hstatus : ∀ t, (f t).status = t.status) : (c.revise f).Closed := by
  refine ⟨h.wellFormed.revise hf, ?_⟩
  intro p' hp' hdone t' ht' hparent
  obtain ⟨p, hp, rfl⟩ := List.mem_map.1 hp'
  obtain ⟨t, ht, rfl⟩ := List.mem_map.1 ht'
  rw [hstatus] at hdone ⊢
  rw [hf.parent, hf.id] at hparent
  exact h.children p hp hdone t ht hparent

/-- New places of some tasks. -/
theorem placed (h : c.Closed) (now : Instant) (orders : List (Uuid × Int)) :
    (c.revise (Task.placed now orders)).Closed := by
  refine h.revise (.placed now orders) fun t => ?_
  obtain ⟨_, _, heq⟩ := t.placed_eq now orders
  rw [heq]

theorem relocated (h : c.Closed) (now : Instant) (t : Task) (target : Int) :
    (c.relocated now t target).Closed := by
  rcases c.relocated_cases now t target with hsame | ⟨orders, hplaced⟩
  · rw [hsame]
    exact h
  · rw [hplaced]
    exact h.placed now orders

theorem pruned (h : c.Closed) (now : Instant) (ht : t ∈ c.tasks) : (c.pruned now t).Closed := by
  refine ⟨h.wellFormed.pruned now ht, ?_⟩
  have hkeep := KeepsTree.placed now (Siblings.closing (c.ranked t.group) t.order)
  have hstatus : ∀ s : Task,
      (s.placed now (Siblings.closing (c.ranked t.group) t.order)).status = s.status := by
    intro s
    obtain ⟨_, _, heq⟩ := s.placed_eq now (Siblings.closing (c.ranked t.group) t.order)
    rw [heq]
  intro p' hp' hdone s' hs' hparent
  obtain ⟨p, hp, rfl⟩ := List.mem_map.1 hp'
  obtain ⟨s, hs, rfl⟩ := List.mem_map.1 hs'
  rw [hstatus] at hdone ⊢
  rw [hkeep.parent, hkeep.id] at hparent
  exact h.children p (mem_without.1 hp).1 hdone s (mem_without.1 hs).1 hparent

theorem withProject (h : c.Closed) {q : Project} (hid : ∀ p ∈ c.projects, p.id ≠ q.id)
    (hname : ∀ p ∈ c.projects, p.name ≠ q.name) :
    ({ c with projects := c.projects ++ [q] } : Catalog).Closed :=
  ⟨h.wellFormed.withProject hid hname, h.children⟩

/-- **A new task.**  A pending task leaves a catalog closed unless its parent is completed. -/
theorem withTask_iff (h : c.Closed) (hwf : (c.withTask t).WellFormed)
    (hpending : t.status = .pending) :
    (c.withTask t).Closed ↔ ∀ p ∈ c.tasks, t.parent = some p.id → p.status ≠ .completed := by
  constructor
  · intro hclosed p hp hparent hdone
    have hchild := hclosed.children p (List.mem_append_left _ hp) hdone t
      (List.mem_append_right _ List.mem_cons_self) hparent
    rw [hpending] at hchild
    cases hchild
  · intro hopen
    refine ⟨hwf, fun p hp hdone s hs hparent => ?_⟩
    rcases List.mem_append.1 hp with hp | hp
    · rcases List.mem_append.1 hs with hs | hs
      · exact h.children p hp hdone s hs hparent
      · rw [List.mem_singleton.1 hs] at hparent
        exact absurd hdone (hopen p hp hparent)
    · -- the new task is pending
      rw [List.mem_singleton.1 hp, hpending] at hdone
      cases hdone

/-- **Statuses.**  Giving a status to some tasks keeps a catalog closed: what is done has its
children done, and what is open has its parent open. -/
theorem given {status : Status} {L : List Uuid} (h : c.Closed) (hgiven : c.Given status L c') :
    c'.Closed := by
  obtain ⟨f, hf, rfl, hstatus⟩ := hgiven
  have hkeeps := hf.keepsTree
  refine ⟨h.wellFormed.revise hkeeps, ?_⟩
  intro p' hp' hdone s' hs' hparent
  obtain ⟨p, hp, rfl⟩ := List.mem_map.1 hp'
  obtain ⟨s, hs, rfl⟩ := List.mem_map.1 hs'
  rw [hkeeps.parent, hkeeps.id] at hparent
  cases status with
  | completed =>
    rw [hstatus s hs]
    have hby := (hstatus p hp).1 hdone
    generalize hu : p.id = u at hby hparent
    cases hby with
    | before hr hrdone =>
      -- the children were completed before
      exact .before hs (h.children _ hr hrdone s hs hparent)
    | under hr hu' hru =>
      refine .under hs hu' (.inr ?_)
      rcases hru with hid | hb
      · exact hid ▸ .child hs hparent
      · exact hb.trans (.child hs hparent)
    | parent _ _ _ _ hall => exact hall s hs hparent
  | pending =>
    -- if the child were open now, the parent would be, too
    refine Status.ne_pending_iff.1 fun hopen => ?_
    have hparentOpen : OpenBy c.tasks L p.id := by
      by_cases hsdone : s.status = .completed
      · exact .parent hs hp hparent hsdone ((hstatus s hs).1 hopen)
      · refine .before hp (Status.ne_completed_iff.1 fun hpdone => ?_)
        exact hsdone (h.children p hp hpdone s hs hparent)
    have hpending := (hstatus p hp).2 hparentOpen
    rw [hdone] at hpending
    cases hpending

theorem spreads {now : Instant} {status : Status} (h : c.Closed) (ht : t ∈ c.tasks)
    (hspreads : c.Spreads now t status c') : c'.Closed :=
  h.given (hspreads.given h.wellFormed.forest ht)

end Closed

end Catalog

/-- **What opens a catalog.**  An operation leaves a closed catalog closed, unless it creates a task
below a completed one. -/
theorem Effect.closed_iff {r : Except Failure Answer} (h : c.Closed)
    (heffect : Effect on c op r c') :
    c'.Closed ↔ ¬ (op.CreatesBelowCompleted c ∧ ∃ a, r = .ok a) := by
  -- what creates nothing below another task has to keep the catalog closed
  have hstays (hclosed : c'.Closed) (hno : op.newParent? = none) :
      c'.Closed ↔ ¬ (op.CreatesBelowCompleted c ∧ ∃ a, r = .ok a) := by
    refine iff_of_true hclosed ?_
    rintro ⟨⟨p, -, hparent, -⟩, -⟩
    rw [hno] at hparent
    cases hparent
  cases heffect with
  | refused =>
    refine iff_of_true h ?_
    rintro ⟨-, a, ha⟩
    cases ha
  | looked _ ha =>
    refine hstays h ?_
    cases op with
    | createTask => cases ha
    | _ => rfl
  | createdProject hid hfree hname => exact hstays (h.withProject hid hfree) rfl
  | @createdTask name home parent hid hname hhome hparent =>
    have hwf := h.wellFormed.withTask (t := c.asLast (Task.create on name home parent)) hid hhome
      hparent
    rw [h.withTask_iff hwf rfl]
    constructor
    · rintro hopen ⟨⟨p, hp, hpid, hdone⟩, -⟩
      exact hopen p hp hpid hdone
    · intro hno p hp hpid hdone
      exact hno ⟨⟨p, hp, hpid, hdone⟩, _, rfl⟩
  | @renamed t name ht hname =>
    refine hstays (h.revise ((KeepsTree.renamed on.now name).only t.id) fun s => ?_) rfl
    unfold Catalog.only
    split <;> rfl
  | @moved t place ht => exact hstays (h.relocated on.now t place) rfl
  | given ht hop hspreads =>
    refine hstays (h.spreads ht hspreads) ?_
    cases op with
    | createTask => cases hop
    | _ => rfl
  | deleted ht => exact hstays (h.pruned on.now ht) rfl
  | absent => exact hstays h rfl

end Agenda
