import Agenda.Proofs.Catalog.Descent
import Mathlib.Order.Bounds.Basic

/-!
# Ways up

A change of status climbs: from a task to its parent, as long as the parent passes a test that looks
at both, and it stops at a root or at the first parent that fails.  `Ascent ts P t ps` says that
`ps` are the tasks that such a climb from `t` reaches, the nearest first.

From a stored task there is a climb (`Acyclic.exists_ascent`).  Everything that it reaches is above
the task (`Ascent.above`), each task below those after it (`Ascent.pairwise_below`), so it meets
nothing twice and is shorter than the list of all tasks (`Ascent.length_lt`).  A parent that passes
the test is not left out (`Ascent.parent_mem`).  So a climb reaches as many of the tasks above it as
pass one after another (`Ascent.isGreatest_reaches`), and if the test looks at the parent alone, it
reaches those before the first one that fails (`Ascent.eq_takeWhile`).
-/

namespace Agenda

variable {ts ps : List Task} {P : Task → Task → Prop} {s t p : Task}

/-- A stored task has the identifier of one of some stored tasks only if it is that one. -/
theorem id_mem_map_iff (hids : (ts.map (·.id)).Nodup) (hps : ∀ p ∈ ps, p ∈ ts) (hs : s ∈ ts) :
    s.id ∈ ps.map (·.id) ↔ s ∈ ps := by
  refine ⟨fun hin => ?_, fun hin => List.mem_map_of_mem hin⟩
  obtain ⟨p, hp, hid⟩ := List.mem_map.1 hin
  rwa [← List.inj_on_of_nodup_map hids (hps p hp) hs hid]

/-- The parents that a climb from a task reaches, the nearest first; `P s p` is the test of the
parent `p` as it is reached from `s`. -/
inductive Ascent (ts : List Task) (P : Task → Task → Prop) : Task → List Task → Prop
  /-- There is no parent. -/
  | root {t : Task} (hroot : t.parent = none) : Ascent ts P t []
  /-- The parent fails the test. -/
  | stop {t p : Task} (hp : p ∈ ts) (hparent : t.parent = some p.id) (hP : ¬ P t p) :
      Ascent ts P t []
  /-- The parent passes, and the climb goes on from there. -/
  | step {t p : Task} {ps : List Task} (hp : p ∈ ts) (hparent : t.parent = some p.id) (hP : P t p)
    (hrest : Ascent ts P p ps) : Ascent ts P t (p :: ps)

/-- From a stored task there is a climb, if the parents of stored tasks are stored. -/
theorem Acyclic.exists_ascent (h : Acyclic ts) (P : Task → Task → Prop)
    (hstored : ∀ t ∈ ts, ∀ u, t.parent = some u → ∃ p ∈ ts, p.id = u) (ht : t ∈ ts) :
    ∃ ps, Ascent ts P t ps := by
  -- from the roots down: the climb from the parent is known
  generalize hu : t.id = u
  induction u using h.wellFounded.induction generalizing t with
  | _ u ih =>
    subst hu
    cases hparent : t.parent with
    | none => exact ⟨[], .root hparent⟩
    | some v =>
      obtain ⟨p, hp, rfl⟩ := hstored t ht v hparent
      by_cases hP : P t p
      · obtain ⟨ps, hps⟩ := ih p.id (.of_mem ht hparent) hp rfl
        exact ⟨p :: ps, .step hp hparent hP hps⟩
      · exact ⟨[], .stop hp hparent hP⟩

namespace Ascent

/-- A climb reaches stored tasks above the task where it starts. -/
theorem above (h : Ascent ts P t ps) (ht : t ∈ ts) : ∀ p ∈ ps, p ∈ ts ∧ Below ts p.id t.id := by
  induction h with
  | root | stop => exact fun _ hq => nomatch hq
  | step hp hparent _ _ ih =>
    have hlink := Below.child ht hparent
    intro q hq
    rcases List.mem_cons.1 hq with rfl | hq
    · exact ⟨hp, hlink⟩
    · obtain ⟨hmem, hbelow⟩ := ih hp q hq
      exact ⟨hmem, hbelow.trans hlink⟩

theorem stored (h : Ascent ts P t ps) (ht : t ∈ ts) : ∀ p ∈ t :: ps, p ∈ ts := by
  intro p hp
  rcases List.mem_cons.1 hp with rfl | hp
  · exact ht
  · exact (h.above ht p hp).1

/-- Each task of a climb is below those that come after it. -/
theorem pairwise_below (h : Ascent ts P t ps) (ht : t ∈ ts) :
    (t :: ps).Pairwise fun s p => Below ts p.id s.id := by
  induction h with
  | root | stop => exact List.pairwise_singleton _ _
  | step hp hparent hP hrest ih =>
    have hwhole := Ascent.step hp hparent hP hrest
    exact List.pairwise_cons.2 ⟨fun q hq => (hwhole.above ht q hq).2, ih hp⟩

/-- A stored task has the identifier of one that a climb starts from or reaches only if it is that
one. -/
theorem id_mem_iff (h : Ascent ts P t ps) (hids : (ts.map (·.id)).Nodup) (ht : t ∈ ts)
    (hs : s ∈ ts) : s.id ∈ t.id :: ps.map (·.id) ↔ s ∈ t :: ps :=
  id_mem_map_iff hids (h.stored ht) hs

/-- A climb meets no task twice. -/
theorem nodup (h : Ascent ts P t ps) (hacyclic : Acyclic ts) (ht : t ∈ ts) : (t :: ps).Nodup := by
  refine (h.pairwise_below ht).imp fun {s p} hbelow hsame => ?_
  rw [hsame] at hbelow
  exact hacyclic _ hbelow

/-- A climb is shorter than the list of all tasks. -/
theorem length_lt (h : Ascent ts P t ps) (hacyclic : Acyclic ts) (ht : t ∈ ts) :
    ps.length < ts.length := by
  have hsub : (t :: ps).Subperm ts := List.subperm_of_subset (h.nodup hacyclic ht) (h.stored ht)
  have hlen := hsub.length_le
  rw [List.length_cons] at hlen
  omega

/-- A climb does not stop below a parent that passes the test. -/
theorem parent_mem (h : Ascent ts P t ps) (hids : (ts.map (·.id)).Nodup) (hs : s ∈ t :: ps)
    (hp : p ∈ ts) (hparent : s.parent = some p.id) (hP : P s p) : p ∈ ps := by
  have hsame : ∀ {q : Task}, q ∈ ts → s.parent = some q.id → q = p := by
    intro q hq hsq
    have hid : q.id = p.id := Option.some.inj (hsq.symm.trans hparent)
    exact List.inj_on_of_nodup_map hids hq hp hid
  induction h with
  | root hroot =>
    rw [List.mem_singleton.1 hs, hroot] at hparent
    cases hparent
  | stop hq htq hnot =>
    obtain rfl := List.mem_singleton.1 hs
    rw [hsame hq htq] at hnot
    exact absurd hP hnot
  | step hq htq _ _ ih =>
    rcases List.mem_cons.1 hs with rfl | hs
    · rw [hsame hq htq]
      exact List.mem_cons_self
    · exact List.mem_cons_of_mem _ (ih hs)

end Ascent

/-! ### How far a climb comes -/

/-- The tasks above a task, from its parent up to a root. -/
abbrev Lineage (ts : List Task) (t : Task) (above : List Task) : Prop :=
  Ascent ts (fun _ _ => True) t above

/-- The numbers of steps that a climb can take: each of so many parents, one after another, passes
the test as it is reached from the one before. -/
def reaches (P : Task → Task → Prop) (t : Task) (above : List Task) : Set Nat :=
  { k | k ≤ above.length ∧ ∀ x ∈ ((t :: above).zip above).take k, P x.1 x.2 }

theorem zero_mem_reaches (P : Task → Task → Prop) (t : Task) (above : List Task) :
    0 ∈ reaches P t above :=
  ⟨Nat.zero_le _, fun _ hx => absurd hx List.not_mem_nil⟩

namespace Ascent

variable {above : List Task}

/-- A root has no tasks above it. -/
theorem lineage_of_root (h : Lineage ts t above) (hroot : t.parent = none) : above = [] := by
  cases h with
  | root => rfl
  | stop => rfl
  | step _ hparent =>
    rw [hroot] at hparent
    cases hparent

/-- Above a task with a stored parent there are the parent and the tasks above the parent. -/
theorem lineage_of_parent (h : Lineage ts t above) (hids : (ts.map (·.id)).Nodup) (hp : p ∈ ts)
    (hparent : t.parent = some p.id) : ∃ rest, above = p :: rest ∧ Lineage ts p rest := by
  cases h with
  | root hroot =>
    rw [hroot] at hparent
    cases hparent
  | stop _ _ hnot => exact absurd trivial hnot
  | @step _ q rest hq hparent' _ hrest =>
    have hid : q.id = p.id := Option.some.inj (hparent'.symm.trans hparent)
    obtain rfl : q = p := List.inj_on_of_nodup_map hids hq hp hid
    exact ⟨rest, rfl, hrest⟩

/-- **How far.**  A climb goes on as long as it can: it reaches the first parents of its lineage, as
many as pass the test one after another. -/
theorem isGreatest_reaches (h : Ascent ts P t ps) (hids : (ts.map (·.id)).Nodup)
    (habove : Lineage ts t above) :
    ∃ k, ps = above.take k ∧ IsGreatest (reaches P t above) k := by
  induction h generalizing above with
  | root hroot =>
    obtain rfl := habove.lineage_of_root hroot
    exact ⟨0, rfl, zero_mem_reaches P _ [], fun k hk => hk.1⟩
  | stop hp hparent hfails =>
    obtain ⟨rest, rfl, -⟩ := habove.lineage_of_parent hids hp hparent
    refine ⟨0, rfl, zero_mem_reaches P _ _, fun k hk => ?_⟩
    -- a climb of one step or more would begin with the parent that fails
    cases k with
    | zero => exact Nat.le_refl 0
    | succ k => exact absurd (hk.2 _ List.mem_cons_self) hfails
  | step hp hparent hP _ ih =>
    obtain ⟨rest, rfl, hrest⟩ := habove.lineage_of_parent hids hp hparent
    obtain ⟨k, hps, ⟨hlen, hpass⟩, hmax⟩ := ih hrest
    refine ⟨k + 1, congrArg _ hps, ⟨Nat.succ_le_succ hlen, fun x hx => ?_⟩, fun j hj => ?_⟩
    · rcases List.mem_cons.1 hx with rfl | hx
      · exact hP
      · exact hpass x hx
    · cases j with
      | zero => exact Nat.zero_le _
      | succ j =>
        refine Nat.succ_le_succ (hmax ⟨Nat.le_of_succ_le_succ hj.1, fun x hx => ?_⟩)
        exact hj.2 x (List.mem_cons_of_mem _ hx)

/-- **How far, by a test of the parent alone.**  The climb reaches the tasks of its lineage before
the first one that fails. -/
theorem eq_takeWhile {q : Task → Bool} (h : Ascent ts P t ps) (hP : ∀ s p, P s p ↔ q p = true)
    (hids : (ts.map (·.id)).Nodup) (habove : Lineage ts t above) : ps = above.takeWhile q := by
  induction h generalizing above with
  | root hroot =>
    rw [habove.lineage_of_root hroot, List.takeWhile_nil]
  | stop hp hparent hfails =>
    obtain ⟨rest, rfl, -⟩ := habove.lineage_of_parent hids hp hparent
    rw [hP] at hfails
    rw [List.takeWhile_cons_of_neg hfails]
  | step hp hparent hpasses _ ih =>
    obtain ⟨rest, rfl, hrest⟩ := habove.lineage_of_parent hids hp hparent
    rw [hP] at hpasses
    rw [List.takeWhile_cons_of_pos hpasses, ← ih hrest]

end Ascent

end Agenda
