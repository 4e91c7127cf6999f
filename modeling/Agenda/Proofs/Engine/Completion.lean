import Agenda.Engine.Completion
import Agenda.Proofs.Catalog.Ascent
import Agenda.Proofs.Engine.Renumbering
import Agenda.Proofs.Program.Meets

/-!
# How the status of a task spreads

Both programs write nothing but one status, and so every catalog on their way is the first one with
that status given to some of its tasks (`Catalog.restate`).  Which tasks these are is the whole of
what the programs do (`Catalog.Spreads`): completing reaches the subtree of a task and the parents
above it, each as long as the child that it is reached from was its last open one, reopening reaches
the task and the completed parents above it.

Both ways up are climbs (`Ascent`).  What a climb has written so far lies below the parent that it
looks at next, and the siblings at that parent it has not touched, so it reads there what was stored
at first.  No request fails once the first one has found its task.
-/

namespace Agenda

open Program

/-- A rewriting that changes the status of a task and the time of its change at most. -/
def StatusOnly (f : Task → Task) : Prop :=
  ∀ t, ∃ status updated, f t = { t with status := status, updated := updated }

namespace StatusOnly

variable {f : Task → Task}

theorem refl : StatusOnly fun t => t := fun t => ⟨t.status, t.updated, rfl⟩

/-- One rewriting after another. -/
theorem comp {g : Task → Task} (hf : StatusOnly f) (hg : StatusOnly g) : StatusOnly (g ∘ f) := by
  intro t
  obtain ⟨_, _, h⟩ := hf t
  obtain ⟨status, updated, h'⟩ := hg (f t)
  refine ⟨status, updated, ?_⟩
  rw [Function.comp_apply, h', h]

theorem keepsTree (hf : StatusOnly f) : KeepsTree f := by
  constructor <;> intro t <;> obtain ⟨_, _, h⟩ := hf t <;> rw [h]

theorem order (hf : StatusOnly f) (t : Task) : (f t).order = t.order := by
  obtain ⟨_, _, h⟩ := hf t
  rw [h]

theorem name (hf : StatusOnly f) (t : Task) : (f t).name = t.name := by
  obtain ⟨_, _, h⟩ := hf t
  rw [h]

end StatusOnly

namespace Catalog

variable {c c' : Catalog} {t : Task}

/-- The second catalog is the first one with other statuses and times of change. -/
def Restated (c c' : Catalog) : Prop := ∃ f, StatusOnly f ∧ c' = c.revise f

namespace Restated

theorem refl (c : Catalog) : Restated c c :=
  ⟨fun t => t, .refl, (revise_eq_self fun _ _ => rfl).symm⟩

theorem trans {c'' : Catalog} (h : Restated c c') (h' : Restated c' c'') : Restated c c'' := by
  obtain ⟨f, hf, rfl⟩ := h
  obtain ⟨g, hg, rfl⟩ := h'
  exact ⟨g ∘ f, hf.comp hg, congrArg (Catalog.mk c.projects) (List.map_map ..)⟩

theorem ids (h : Restated c c') (hids : c.UniqueIds) : c'.UniqueIds := by
  obtain ⟨f, hf, rfl⟩ := h
  exact hids.revise hf.keepsTree.id

theorem acyclic (h : Restated c c') (hacyclic : Acyclic c.tasks) : Acyclic c'.tasks := by
  obtain ⟨f, hf, rfl⟩ := h
  exact (acyclic_map hf.keepsTree.id hf.keepsTree.parent).2 hacyclic

theorem exists_mem (h : Restated c c') (ht : t ∈ c.tasks) : ∃ s ∈ c'.tasks, s.id = t.id := by
  obtain ⟨f, hf, rfl⟩ := h
  exact ⟨f t, List.mem_map_of_mem ht, hf.keepsTree.id t⟩

theorem sound (h : Restated c c') (hc : c.Sound) : c'.Sound := by
  obtain ⟨f, hf, rfl⟩ := h
  refine hc.revise hf.keepsTree hf.order fun t ht => ?_
  rw [hf.name]
  exact hc.names t ht

theorem length_eq (h : Restated c c') : c'.tasks.length = c.tasks.length := by
  obtain ⟨f, -, rfl⟩ := h
  exact List.length_map _

theorem whole (h : Restated c c') (hc : c.Whole) : c'.Whole := by
  obtain ⟨f, hf, rfl⟩ := h
  exact hc.revise hf.keepsTree

theorem valid (h : Restated c c') (hc : c.Valid) : c'.Valid := by
  obtain ⟨f, hf, rfl⟩ := h
  refine ⟨fun t' ht' => ?_, hc.projects⟩
  obtain ⟨t, ht, rfl⟩ := List.mem_map.1 ht'
  have hpasses := hc.tasks t ht
  rw [Task.errors_eq_nil] at hpasses ⊢
  rwa [hf.name, hf.order]

end Restated

end Catalog

/-! ### One status for some tasks -/

/-- A task with a status, if it is one of those with some identifiers. -/
def Task.restated (now : Instant) (status : Status) (ids : List Uuid) (t : Task) : Task :=
  if t.id ∈ ids then { t with status := status, updated := now } else t

namespace Task

variable {ids : List Uuid} {t : Task}

theorem restated_of_mem (h : t.id ∈ ids) (now : Instant) (status : Status) :
    t.restated now status ids = { t with status := status, updated := now } := if_pos h

theorem restated_of_notMem (h : t.id ∉ ids) (now : Instant) (status : Status) :
    t.restated now status ids = t := if_neg h

/-- A task has the status then if it gets it or had it. -/
theorem restated_status_iff (t : Task) (now : Instant) (status : Status) (ids : List Uuid) :
    (t.restated now status ids).status = status ↔ t.id ∈ ids ∨ t.status = status := by
  by_cases h : t.id ∈ ids
  · rw [restated_of_mem h]
    exact iff_of_true rfl (.inl h)
  · rw [restated_of_notMem h]
    exact ⟨.inr, fun hor => hor.resolve_left h⟩

end Task

theorem StatusOnly.restated (now : Instant) (status : Status) (ids : List Uuid) :
    StatusOnly (Task.restated now status ids) := by
  intro t
  unfold Task.restated
  split
  · exact ⟨status, now, rfl⟩
  · exact ⟨t.status, t.updated, rfl⟩

namespace Catalog

variable {c : Catalog} {t : Task} {now : Instant} {status : Status} {ids : List Uuid}

/-- The catalog with a status given to the tasks with some identifiers. -/
def restate (now : Instant) (status : Status) (ids : List Uuid) (c : Catalog) : Catalog :=
  c.revise (Task.restated now status ids)

theorem Restated.restate (c : Catalog) (now : Instant) (status : Status) (ids : List Uuid) :
    Restated c (c.restate now status ids) :=
  ⟨_, .restated now status ids, rfl⟩

@[simp] theorem restate_nil (c : Catalog) (now : Instant) (status : Status) :
    c.restate now status [] = c :=
  revise_eq_self fun t _ => t.restated_of_notMem List.not_mem_nil now status

/-- Only which identifiers are meant counts, not their order. -/
theorem restate_congr {ids' : List Uuid} (h : ∀ u, u ∈ ids ↔ u ∈ ids') (c : Catalog)
    (now : Instant) (status : Status) : c.restate now status ids = c.restate now status ids' := by
  have hsame : Task.restated now status ids = Task.restated now status ids' := by
    funext t
    unfold Task.restated
    rw [if_congr (h t.id) rfl rfl]
  rw [restate, hsame, restate]

/-- The status for one more task. -/
theorem restate_only (c : Catalog) (now : Instant) (status : Status) (ids : List Uuid) (u : Uuid) :
    (c.restate now status ids).revise
        (only u fun t => { t with status := status, updated := now }) =
      c.restate now status (ids ++ [u]) := by
  rw [restate, restate, revise, revise_tasks, List.map_map]
  refine congrArg (fun f => c.revise f) (funext fun t => ?_)
  have hid : (t.restated now status ids).id = t.id :=
    (StatusOnly.restated now status ids).keepsTree.id t
  rw [Function.comp, only, hid]
  unfold Task.restated
  by_cases hin : t.id ∈ ids
  · rw [if_pos hin, if_pos (List.mem_append_left _ hin)]
    split <;> rfl
  · by_cases hu : t.id = u
    · rw [if_neg hin, if_pos hu, if_pos (List.mem_append_right _ (List.mem_singleton.2 hu))]
    · have hout : t.id ∉ ids ++ [u] := by simp [hin, hu]
      rw [if_neg hin, if_neg hu, if_neg hout]

/-- A task that the status is not given to stands as it stood. -/
theorem mem_restate_of_notMem (ht : t ∈ c.tasks) (hid : t.id ∉ ids) :
    t ∈ (c.restate now status ids).tasks :=
  List.mem_map.2 ⟨t, ht, t.restated_of_notMem hid now status⟩

/-- The identifiers of a subtree and of some stored tasks. -/
theorem mem_subtree_append (h : c.Forest) (ht : t ∈ c.tasks) {ps : List Task} {s : Task}
    (hps : ∀ p ∈ ps, p ∈ c.tasks) (hs : s ∈ c.tasks) :
    s.id ∈ c.subtree t ++ ps.map (·.id) ↔ s = t ∨ Below c.tasks t.id s.id ∨ s ∈ ps := by
  have hself : s.id = t.id ↔ s = t := ⟨h.ids.eq hs ht, congrArg _⟩
  rw [List.mem_append, mem_subtree h.ids h.acyclic ht s hs, hself, id_mem_map_iff h.ids hps hs,
    or_assoc]

/-- The parent is pending, and all of its children but one are completed. -/
def LastOpen (c : Catalog) (s p : Task) : Prop :=
  p.status = .pending ∧
    ∀ q ∈ c.tasks, q.parent = some p.id → q.id ≠ s.id → q.status = .completed

/-- What a catalog becomes when a task gets a status. -/
inductive Spreads (now : Instant) (c : Catalog) (t : Task) : Status → Catalog → Prop
  /-- The task is completed with everything below it, and so are the parents that it or a parent
  below them was the last open child of. -/
  | completed {ps : List Task} (h : Ascent c.tasks c.LastOpen t ps) :
    Spreads now c t .completed (c.restate now .completed (c.subtree t ++ ps.map (·.id)))
  /-- A completed task is reopened, and so are the completed parents above it. -/
  | reopened {ps : List Task} (ht : t.status = .completed)
    (h : Ascent c.tasks (fun _ p => p.status = .completed) t ps) :
    Spreads now c t .pending (c.restate now .pending (t.id :: ps.map (·.id)))
  /-- A pending task stays as it is. -/
  | pending (ht : t.status = .pending) : Spreads now c t .pending c

theorem Spreads.restated {c' : Catalog} (h : c.Spreads now t status c') : Restated c c' := by
  cases h with
  | completed => exact .restate ..
  | reopened => exact .restate ..
  | pending => exact .refl c

end Catalog

theorem Task.isCompleted_iff {t : Task} : t.isCompleted = true ↔ t.status = .completed :=
  decide_eq_true_iff

theorem Status.ne_completed_iff {status : Status} : status ≠ .completed ↔ status = .pending := by
  cases status <;> simp

theorem Status.ne_pending_iff {status : Status} : status ≠ .pending ↔ status = .completed := by
  cases status <;> simp

/-- There are two statuses, so one test tells them apart. -/
theorem Status.eq_of_iff {a b status : Status} (h : a = status ↔ b = status) : a = b := by
  cases a <;> cases b <;> cases status <;> simp_all

namespace Completion

variable {c : Catalog} {t p : Task} {ps : List Task} {now : Instant} {S : Catalog → Prop}
  {status : Status} {ids : List Uuid}

/-! ### The requests -/

theorem meets_setStatus (now : Instant) (hids : c.UniqueIds) (ht : t ∈ c.tasks)
    (hS : ∀ c', c.Restated c' → S c') (status : Status) (ids : List Uuid) :
    (ask (.setStatus t.id status)).Meets now S
      (fun r c' => r = .ok () ∧ c' = c.restate now status (ids ++ [t.id]))
      (c.restate now status ids) := by
  have hrestated := Catalog.Restated.restate c now status ids
  obtain ⟨s, hs, hid⟩ := hrestated.exists_mem ht
  have hanswer : Store.Backend.answer now (.setStatus t.id status) (c.restate now status ids) =
      (.ok (), c.restate now status (ids ++ [t.id])) := by
    rw [← Catalog.restate_only, ← hid, Catalog.answer_setStatus,
      (hrestated.ids hids).change_of_mem hs]
    rfl
  exact meets_ask_of (.setStatus _ _) hanswer (hS _ (.restate ..)) ⟨rfl, rfl⟩

/-- A task that the status is not given to is found as it stood. -/
theorem meets_task (hids : c.UniqueIds) (ht : t ∈ c.tasks) (hid : t.id ∉ ids)
    (hS : ∀ c', c.Restated c' → S c') {Q : Except Failure Task → Catalog → Prop}
    (hQ : Q (.ok t) (c.restate now status ids)) :
    (ask (.task t.id)).Meets now S Q (c.restate now status ids) := by
  have hrestated := Catalog.Restated.restate c now status ids
  have hanswer : Store.Backend.answer now (.task t.id) (c.restate now status ids) =
      (.ok t, c.restate now status ids) := by
    rw [Catalog.answer_task,
      (hrestated.ids hids).task_of_mem (Catalog.mem_restate_of_notMem ht hid)]
  exact meets_ask_of (.task _) hanswer (hS _ hrestated) hQ

/-! ### The ways up -/

section Climbing

variable (hids : c.UniqueIds) (hacyclic : Acyclic c.tasks) (ht : t ∈ c.tasks) (hp : p ∈ c.tasks)
  (hparent : t.parent = some p.id)
  (hbelow : ∀ s ∈ c.tasks, s.id ∈ ids → s.id = t.id ∨ Below c.tasks t.id s.id)

include hacyclic ht hp hparent hbelow in
/-- What has been written below a task is below its parent as well, and so not the parent. -/
theorem parent_notMem : p.id ∉ ids := by
  intro hin
  have hlink := Below.child ht hparent
  rcases hbelow p hp hin with hid | hb
  · exact hacyclic t.id (hid ▸ hlink)
  · exact hacyclic t.id (hb.trans hlink)

include ht hparent hbelow in
/-- After the parent is written, everything that has been written is still below. -/
theorem below_parent : ∀ s ∈ c.tasks, s.id ∈ ids ++ [p.id] →
    s.id = p.id ∨ Below c.tasks p.id s.id := by
  have hlink := Below.child ht hparent
  intro s hs hin
  rcases List.mem_append.1 hin with hin | hin
  · rcases hbelow s hs hin with hid | hb
    · exact .inr (hid ▸ hlink)
    · exact .inr (hlink.trans hb)
  · exact .inl (List.mem_singleton.1 hin)

include hids hacyclic ht hparent hbelow in
/-- All children of a parent are completed now if all but one were so at first; for of the others
none has been written. -/
theorem children_completed_iff (now : Instant) (hin : t.id ∈ ids) :
    (((c.restate now .completed ids).children p.id).filter (!·.isCompleted)).isEmpty ↔
      ∀ q ∈ c.tasks, q.parent = some p.id → q.id ≠ t.id → q.status = .completed := by
  have hkeeps := (StatusOnly.restated now .completed ids).keepsTree
  rw [List.isEmpty_iff, List.filter_eq_nil_iff]
  constructor
  · intro hall q hq hqp hne
    have hfresh : q.id ∉ ids := by
      intro hqin
      rcases hbelow q hq hqin with hid | hb
      · exact hne hid
      · exact hacyclic.not_below_sibling hids ht hparent hq hqp hb
    have hchild : q ∈ (c.restate now .completed ids).children p.id :=
      mem_childrenIn.2 ⟨Catalog.mem_restate_of_notMem hq hfresh, hqp⟩
    have hcompleted := hall q hchild
    rw [Bool.not_eq_true, Bool.not_eq_false'] at hcompleted
    exact Task.isCompleted_iff.1 hcompleted
  · intro hall r hr
    obtain ⟨hr, hrp⟩ := mem_childrenIn.1 hr
    obtain ⟨q, hq, rfl⟩ := List.mem_map.1 hr
    rw [hkeeps.parent] at hrp
    rw [Bool.not_eq_true, Bool.not_eq_false', Task.isCompleted_iff]
    by_cases hqin : q.id ∈ ids
    · rw [Task.restated_of_mem hqin]
    · rw [Task.restated_of_notMem hqin]
      exact hall q hq hrp fun hid => hqin (hid ▸ hin)

end Climbing

/-- Going up from a task that has been completed. -/
theorem meets_closeAbove (hids : c.UniqueIds) (hacyclic : Acyclic c.tasks)
    (hS : ∀ c', c.Restated c' → S c') (h : Ascent c.tasks c.LastOpen t ps) (ht : t ∈ c.tasks)
    {n : Nat} (hn : ps.length ≤ n) (hin : t.id ∈ ids)
    (hbelow : ∀ s ∈ c.tasks, s.id ∈ ids → s.id = t.id ∨ Below c.tasks t.id s.id) :
    (closeAbove n t).Meets now S
      (fun r c' => r = .ok () ∧ c' = c.restate now .completed (ids ++ ps.map (·.id)))
      (c.restate now .completed ids) := by
  -- along the climb: what has been written stays below the task that it has come to
  induction h generalizing n ids with
  | root hroot =>
    rw [List.map_nil, List.append_nil]
    cases n with
    | zero => exact ⟨rfl, rfl⟩
    | succ n =>
      unfold closeAbove
      rw [hroot]
      exact ⟨rfl, rfl⟩
  | @stop t p hp hparent hnot =>
    rw [List.map_nil, List.append_nil]
    cases n with
    | zero => exact ⟨rfl, rfl⟩
    | succ n =>
      have hfresh := parent_notMem hacyclic ht hp hparent hbelow
      unfold closeAbove
      rw [hparent, meets_bind]
      refine meets_task hids hp hfresh hS ?_
      rw [between_ok]
      split
      · exact ⟨rfl, rfl⟩
      · rename_i hopen
        have hpending : p.status = .pending :=
          Status.ne_completed_iff.1 fun hc => hopen (Task.isCompleted_iff.2 hc)
        rw [meets_bind]
        refine meets_ask_of (.children _) (((Catalog.Restated.restate ..).ids hids).about_of_mem
          (Catalog.mem_restate_of_notMem hp hfresh) _) (hS _ (.restate ..)) ?_
        rw [between_ok]
        dsimp only
        split
        · rename_i hempty
          have hall := (children_completed_iff hids hacyclic ht hparent hbelow now hin).1 hempty
          exact absurd ⟨hpending, hall⟩ hnot
        · exact ⟨rfl, rfl⟩
  | @step t p ps hp hparent hlast _ ih =>
    obtain ⟨m, rfl⟩ : ∃ m, n = m + 1 := by
      rw [List.length_cons] at hn
      exact ⟨n - 1, by omega⟩
    have hfresh := parent_notMem hacyclic ht hp hparent hbelow
    have hopen : ¬ p.isCompleted = true := by
      rw [Task.isCompleted_iff, hlast.1]
      exact fun h => nomatch h
    have hempty := (children_completed_iff hids hacyclic ht hparent hbelow now hin).2 hlast.2
    unfold closeAbove
    rw [hparent, meets_bind]
    refine meets_task hids hp hfresh hS ?_
    rw [between_ok, if_neg hopen, meets_bind]
    refine meets_ask_of (.children _) (((Catalog.Restated.restate ..).ids hids).about_of_mem
      (Catalog.mem_restate_of_notMem hp hfresh) _) (hS _ (.restate ..)) ?_
    rw [between_ok]
    dsimp only
    rw [if_pos hempty, meets_bind]
    refine (meets_setStatus now hids hp hS .completed ids).mono ?_
    rintro _ _ ⟨rfl, rfl⟩
    have hrest := ih hp (Nat.le_of_succ_le_succ hn) (List.mem_append_right _ List.mem_cons_self)
      (below_parent ht hparent hbelow)
    rw [List.append_assoc] at hrest
    exact hrest

/-- Going up from a task that has been reopened. -/
theorem meets_reopenAbove (hids : c.UniqueIds) (hacyclic : Acyclic c.tasks)
    (hS : ∀ c', c.Restated c' → S c')
    (h : Ascent c.tasks (fun _ p => p.status = .completed) t ps) (ht : t ∈ c.tasks) (start : Uuid)
    {n : Nat} (hn : ps.length ≤ n)
    (hbelow : ∀ s ∈ c.tasks, s.id ∈ ids → s.id = t.id ∨ Below c.tasks t.id s.id) :
    (reopenAbove start n t).Meets now S
      (fun r c' => r = .ok () ∧ c' = c.restate now .pending (ids ++ ps.map (·.id)))
      (c.restate now .pending ids) := by
  induction h generalizing n ids with
  | root hroot =>
    rw [List.map_nil, List.append_nil]
    cases n with
    | zero => exact ⟨rfl, rfl⟩
    | succ n =>
      unfold reopenAbove
      rw [hroot]
      exact ⟨rfl, rfl⟩
  | @stop t p hp hparent hnot =>
    rw [List.map_nil, List.append_nil]
    cases n with
    | zero => exact ⟨rfl, rfl⟩
    | succ n =>
      unfold reopenAbove
      rw [hparent, meets_bind]
      refine meets_task hids hp (parent_notMem hacyclic ht hp hparent hbelow) hS ?_
      rw [between_ok, if_neg fun hc => hnot (Task.isCompleted_iff.1 hc)]
      exact ⟨rfl, rfl⟩
  | @step t p ps hp hparent hcompleted _ ih =>
    obtain ⟨m, rfl⟩ : ∃ m, n = m + 1 := by
      rw [List.length_cons] at hn
      exact ⟨n - 1, by omega⟩
    unfold reopenAbove
    rw [hparent, meets_bind]
    refine meets_task hids hp (parent_notMem hacyclic ht hp hparent hbelow) hS ?_
    rw [between_ok, if_pos (Task.isCompleted_iff.2 hcompleted), meets_bind]
    refine (meets_setStatus now hids hp hS .pending ids).mono ?_
    rintro _ _ ⟨rfl, rfl⟩
    have hrest := ih hp (Nat.le_of_succ_le_succ hn) (below_parent ht hparent hbelow)
    rw [List.append_assoc] at hrest
    exact hrest

/-! ### The programs -/

/-- Completing everything below a task. -/
theorem meets_completeAll (hids : c.UniqueIds) (hS : ∀ c', c.Restated c' → S c') (ds : List Task)
    (hds : ∀ d ∈ ds, ∃ s ∈ c.tasks, s.id = d.id) (ids : List Uuid) :
    (ds.forM fun d => ask (.setStatus d.id .completed)).Meets now S
      (fun r c' => r = .ok () ∧ c' = c.restate now .completed (ids ++ ds.map (·.id)))
      (c.restate now .completed ids) := by
  -- the tasks written so far and those to come are the whole list
  refine (Meets.forM (I := fun rest c' => ∃ written, written ++ rest = ds ∧
    c' = c.restate now .completed (ids ++ written.map (·.id))) ⟨[], rfl, by simp⟩ ?_).mono ?_
  · rintro d rest c' ⟨written, rfl, rfl⟩
    obtain ⟨s, hs, hid⟩ := hds d (List.mem_append_right _ List.mem_cons_self)
    rw [← hid]
    refine (meets_setStatus now hids hs hS .completed _).mono ?_
    rintro _ _ ⟨rfl, rfl⟩
    refine ⟨rfl, written ++ [d], by rw [List.append_assoc, List.singleton_append], ?_⟩
    rw [List.map_append, List.map_cons, List.map_nil, hid, List.append_assoc]
  · rintro r _ ⟨hr, written, rfl, rfl⟩
    rw [List.append_nil]
    exact ⟨hr, rfl⟩

/-- The descendants of a task are the same after the task has been written. -/
theorem descendants_restate (now : Instant) (hids : c.UniqueIds) (hacyclic : Acyclic c.tasks)
    (ht : t ∈ c.tasks) (status : Status) (ids : List Uuid) (u : Uuid) :
    u ∈ ((c.restate now status ids).descendants t.id).map (·.id) ↔
      u ∈ (c.descendants t.id).map (·.id) := by
  have hrestated := Catalog.Restated.restate c now status ids
  have hkeeps := (StatusOnly.restated now status ids).keepsTree
  have hmem := List.mem_map_of_mem (f := Task.restated now status ids) ht
  have hid := hkeeps.id t
  simp only [List.mem_map]
  constructor
  · rintro ⟨d, hd, rfl⟩
    rw [← hid, Catalog.mem_descendants (hrestated.ids hids) (hrestated.acyclic hacyclic) hmem] at hd
    obtain ⟨hd, hb⟩ := hd
    obtain ⟨s, hs, rfl⟩ := List.mem_map.1 hd
    rw [hid, hkeeps.id] at hb
    have hb' := (below_map hkeeps.id hkeeps.parent).1 hb
    exact ⟨s, (Catalog.mem_descendants hids hacyclic ht).2 ⟨hs, hb'⟩, (hkeeps.id s).symm⟩
  · rintro ⟨s, hs, rfl⟩
    obtain ⟨hs, hb⟩ := (Catalog.mem_descendants hids hacyclic ht).1 hs
    refine ⟨s.restated now status ids, ?_, hkeeps.id s⟩
    rw [← hid, Catalog.mem_descendants (hrestated.ids hids) (hrestated.acyclic hacyclic) hmem, hid,
      hkeeps.id]
    exact ⟨List.mem_map_of_mem hs, (below_map hkeeps.id hkeeps.parent).2 hb⟩

/-- **Completing.**  A stored task is completed without a failure. -/
theorem meets_complete (hids : c.UniqueIds) (hacyclic : Acyclic c.tasks)
    (hp : ∀ t ∈ c.tasks, c.ParentStored t) (ht : t ∈ c.tasks)
    (hS : ∀ c', c.Restated c' → S c') :
    (complete t.id).Meets now S
      (fun r c' => r = .ok { t with status := .completed } ∧ c.Spreads now t .completed c') c := by
  obtain ⟨ps, hps⟩ := hacyclic.exists_ascent c.LastOpen hp ht
  have hfound : Store.Backend.answer now (.task t.id) c = (.ok t, c) := by
    rw [Catalog.answer_task, hids.task_of_mem ht]
  have hwritten := meets_setStatus now hids ht hS .completed []
  rw [Catalog.restate_nil] at hwritten
  unfold complete
  rw [meets_bind]
  refine meets_ask_of (.task _) hfound (hS _ (.refl c)) ?_
  rw [between_ok, meets_bind]
  refine hwritten.mono ?_
  rintro _ _ ⟨rfl, rfl⟩
  rw [between_ok, say, meets_log_bind, meets_bind, List.nil_append]
  have hrestated := Catalog.Restated.restate c now .completed [t.id]
  obtain ⟨s, hs, hid⟩ := hrestated.exists_mem ht
  refine meets_ask_of (.descendants _) (hid ▸ (hrestated.ids hids).about_of_mem hs _)
    (hS _ hrestated) ?_
  rw [between_ok]
  -- the descendants are read after the task has been written, and they are the same
  have hsame := descendants_restate now hids hacyclic ht .completed [t.id]
  generalize (c.restate now .completed [t.id]).descendants t.id = ds at hsame
  have hstored : ∀ d ∈ ds, ∃ s ∈ c.tasks, s.id = d.id := by
    intro d hd
    obtain ⟨s, hs, hsd⟩ := List.mem_map.1 ((hsame d.id).1 (List.mem_map_of_mem hd))
    exact ⟨s, ((Catalog.mem_descendants hids hacyclic ht).1 hs).1, hsd⟩
  have hsubtree : c.restate now .completed ([t.id] ++ ds.map (·.id)) =
      c.restate now .completed (c.subtree t) := by
    refine Catalog.restate_congr (fun u => ?_) c now .completed
    rw [List.singleton_append, Catalog.subtree, List.mem_cons, List.mem_cons, hsame u]
  have hrest : (ds.forM (fun d => ask (.setStatus d.id .completed)) >>= fun _ => do
        closeAbove (← stored) t
        return { t with status := Status.completed }).Meets now S
      (fun r c' => r = .ok { t with status := .completed } ∧ c.Spreads now t .completed c')
      (c.restate now .completed [t.id]) := by
    rw [meets_bind]
    refine (meets_completeAll hids hS ds hstored [t.id]).mono ?_
    rintro _ _ ⟨rfl, rfl⟩
    have hsize : Store.Backend.size (c.restate now .completed (c.subtree t)) = c.tasks.length :=
      (Catalog.Restated.restate ..).length_eq
    have hshort := hps.length_lt hacyclic ht
    rw [hsubtree, between_ok, meets_stored_bind, hsize, meets_bind]
    refine (meets_closeAbove hids hacyclic hS hps ht hshort.le List.mem_cons_self
      fun s hs hin => (Catalog.mem_subtree hids hacyclic ht s hs).1 hin).mono ?_
    rintro _ _ ⟨rfl, rfl⟩
    exact ⟨rfl, .completed hps⟩
  dsimp only
  split
  · exact hrest
  · exact hrest

/-- **Reopening.**  A stored task is reopened without a failure. -/
theorem meets_reopen (hids : c.UniqueIds) (hacyclic : Acyclic c.tasks)
    (hp : ∀ t ∈ c.tasks, c.ParentStored t) (ht : t ∈ c.tasks)
    (hS : ∀ c', c.Restated c' → S c') :
    (reopen t.id).Meets now S
      (fun r c' => r = .ok { t with status := .pending } ∧ c.Spreads now t .pending c') c := by
  obtain ⟨ps, hps⟩ := hacyclic.exists_ascent (fun _ p => p.status = .completed) hp ht
  have hfound : Store.Backend.answer now (.task t.id) c = (.ok t, c) := by
    rw [Catalog.answer_task, hids.task_of_mem ht]
  have hwritten := meets_setStatus now hids ht hS .pending []
  rw [Catalog.restate_nil] at hwritten
  unfold reopen
  rw [meets_bind]
  refine meets_ask_of (.task _) hfound (hS _ (.refl c)) ?_
  rw [between_ok]
  split
  · rename_i hcompleted
    rw [meets_bind]
    refine hwritten.mono ?_
    rintro _ _ ⟨rfl, rfl⟩
    have hsize : Store.Backend.size (c.restate now .pending [t.id]) = c.tasks.length :=
      (Catalog.Restated.restate ..).length_eq
    have hshort := hps.length_lt hacyclic ht
    rw [between_ok, say, meets_log_bind, meets_stored_bind, List.nil_append, hsize, meets_bind]
    refine (meets_reopenAbove hids hacyclic hS hps ht _ hshort.le
      fun s _ hin => .inl (List.mem_singleton.1 hin)).mono ?_
    rintro _ _ ⟨rfl, rfl⟩
    exact ⟨rfl, .reopened (Task.isCompleted_iff.1 hcompleted) hps⟩
  · -- the answer is the task as it is, which is pending already
    rename_i hopen
    have hpending : t.status = .pending :=
      Status.ne_completed_iff.1 fun hc => hopen (Task.isCompleted_iff.2 hc)
    exact ⟨by rw [← hpending], .pending hpending⟩

/-- **Giving a status.**  A stored task gets a status without a failure. -/
theorem meets_set (hids : c.UniqueIds) (hacyclic : Acyclic c.tasks)
    (hp : ∀ t ∈ c.tasks, c.ParentStored t) (ht : t ∈ c.tasks)
    (hS : ∀ c', c.Restated c' → S c') (status : Status) :
    (set t.id status).Meets now S
      (fun r c' => r = .ok { t with status := status } ∧ c.Spreads now t status c') c := by
  cases status with
  | completed => exact meets_complete hids hacyclic hp ht hS
  | pending => exact meets_reopen hids hacyclic hp ht hS

end Completion

end Agenda
