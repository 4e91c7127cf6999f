import Agenda.Proofs.Catalog.Descent
import Mathlib.Data.List.Flatten

/-!
# The order of a pre-order

`Acyclic.preorder` is given by an equation, and the equation leaves no choice
(`Acyclic.preorder_unique`).  What it says of the order of the tasks is brought out here, for lists
of tasks in which parents may be missing and several siblings may have one order.

**Parents and children.**  Every task of a pre-order stands behind its parent
(`Acyclic.parent_sublist_preorder`), and the children of a task stand in it as they do among
themselves, however much comes between them (`Acyclic.filter_preorder`).  So a pre-order can be
broken off anywhere: if the tasks behind some place are taken away, no task loses its parent
(`Acyclic.mem_gone_of_parent`), and every task keeps the first ones of its children
(`Acyclic.childrenIn_eq_append`).
-/

namespace Agenda

open Relation

variable {ts kept gone : List Task} {u v : Uuid} {s t : Task}

/-- Two elements of a list without repetitions that is cut in two: if the earlier one is in the back
part, so is the later one. -/
theorem mem_back_of_sublist {α : Type} {a b : α} {front back : List α}
    (hnd : (front ++ back).Nodup) (h : [a, b].Sublist (front ++ back)) (ha : a ∈ back) :
    b ∈ back := by
  obtain ⟨early, late, hsplit, hearly, hlate⟩ := List.sublist_append_iff.1 h
  cases early with
  | nil =>
    rw [List.nil_append] at hsplit
    exact hlate.subset (hsplit ▸ List.mem_cons_of_mem a List.mem_cons_self)
  | cons x early =>
    -- the earlier one would be in both parts
    obtain ⟨rfl, -⟩ := List.cons.inj hsplit
    exact absurd ha (List.disjoint_of_nodup_append hnd (hearly.subset List.mem_cons_self))

/-- If only one element of a list comes to anything, the list comes to what that element does. -/
theorem flatMap_of_forall_ne {α β : Type} {a : α} {l : List α} {f : α → List β} (hnd : l.Nodup)
    (ha : a ∈ l) (hf : ∀ b ∈ l, b ≠ a → f b = []) : l.flatMap f = f a := by
  induction l with
  | nil => cases ha
  | cons b l ih =>
    obtain ⟨hb, hl⟩ := List.nodup_cons.1 hnd
    rw [List.flatMap_cons]
    rcases List.mem_cons.1 ha with rfl | ha
    · have hnil : l.flatMap f = [] := List.flatMap_eq_nil_iff.2 fun c hc =>
        hf c (List.mem_cons_of_mem _ hc) fun he => hb (he ▸ hc)
      rw [hnil, List.append_nil]
    · rw [hf b List.mem_cons_self fun he => hb (he ▸ ha), List.nil_append]
      exact ih hl ha fun c hc => hf c (List.mem_cons_of_mem _ hc)

/-- **Siblings.**  The children of a task stand in ascending order, those of one order as they were
added. -/
theorem pairwise_childrenIn (ts : List Task) (u : Uuid) :
    (Tree.childrenIn ts u).Pairwise fun s t =>
      s.order < t.order ∨ s.order = t.order ∧ [s, t].Sublist ts := by
  refine List.pairwise_iff_forall_sublist.2 fun {s t} hst => ?_
  have hle : s.order ≤ t.order := List.pairwise_iff_forall_sublist.1 (pairwise_sortOn _ _) hst
  refine (Int.lt_or_eq_of_le hle).imp_right fun heq => ⟨heq, ?_⟩
  have hties : [s, t].Sublist ((Tree.childrenIn ts u).filter (·.order = s.order)) := by
    have hboth := hst.filter (·.order = s.order)
    simpa only [List.filter_cons, List.filter_nil, heq, decide_true, if_true] using hboth
  rw [Tree.childrenIn, filter_key_sortOn] at hties
  exact (hties.trans List.filter_sublist).trans List.filter_sublist

namespace Acyclic

/-- The pre-order is the only list of each task that follows its equation. -/
theorem preorder_unique (h : Acyclic ts) {below : Uuid → List Task}
    (hbelow : ∀ u, below u = (Tree.childrenIn ts u).flatMap fun t => t :: below t.id) :
    below = h.preorder := by
  funext u
  induction u using h.wellFounded_swap.induction with
  | _ u ih =>
    rw [hbelow, h.preorder_eq]
    refine List.flatMap_congr fun t ht => ?_
    obtain ⟨ht, hp⟩ := mem_childrenIn.1 ht
    rw [ih t.id (.of_mem ht hp)]

/-- The part of a pre-order that is about one child. -/
theorem sublist_preorder (h : Acyclic ts) (hs : s ∈ ts) (hp : s.parent = some v) :
    (s :: h.preorder s.id).Sublist (h.preorder v) := by
  have hpart := (List.singleton_sublist.2 (mem_childrenIn.2 ⟨hs, hp⟩)).flatMap
    fun t => t :: h.preorder t.id
  rwa [List.flatMap_singleton, ← h.preorder_eq] at hpart

/-- The pre-order of a child is shorter. -/
theorem length_preorder_child (h : Acyclic ts) (hs : s ∈ Tree.childrenIn ts v) :
    (h.preorder s.id).length < (h.preorder v).length := by
  obtain ⟨hs, hp⟩ := mem_childrenIn.1 hs
  have hpart := (h.sublist_preorder hs hp).length_le
  rwa [List.length_cons] at hpart

/-- **Parents first.**  A task of a pre-order is a child of the task at the top, or its parent
stands before it. -/
theorem parent_sublist_preorder (h : Acyclic ts) (ht : t ∈ h.preorder v) :
    t.parent = some v ∨ ∃ s, t.parent = some s.id ∧ [s, t].Sublist (h.preorder v) := by
  induction v using h.wellFounded_swap.induction with
  | _ v ih =>
    obtain ⟨s, hs, hp, rfl | ht⟩ := h.mem_preorder_iff_child.1 ht
    · exact .inl hp
    · right
      have hpart := h.sublist_preorder hs hp
      rcases ih s.id (.of_mem hs hp) ht with hchild | ⟨r, hr, hbefore⟩
      · exact ⟨s, hchild, ((List.singleton_sublist.2 ht).cons_cons s).trans hpart⟩
      · exact ⟨r, hr, (hbefore.cons s).trans hpart⟩

/-! ### The children of one task within a pre-order -/

/-- No task in a pre-order names a task as its parent that is outside. -/
theorem filter_preorder_of_not (h : Acyclic ts) (hids : (ts.map (·.id)).Nodup)
    (hu : ¬ (u = v ∨ Below ts v u)) : (h.preorder v).filter (·.parent = some u) = [] := by
  refine List.filter_eq_nil_iff.2 fun s hs hparent => hu ?_
  obtain ⟨hs, hbelow⟩ := (h.mem_preorder hids).1 hs
  obtain ⟨s', hs', hid, w, hw, hv⟩ := hbelow.parent
  obtain rfl : s' = s := List.inj_on_of_nodup_map hids hs' hs hid
  obtain rfl : w = u := Option.some.inj (hw.symm.trans (of_decide_eq_true hparent))
  exact hv

/-- **Children within a pre-order.**  The tasks of a pre-order that name one of its tasks, or the
task at the top, as their parent are all the children of that task, and they come in their
order. -/
theorem filter_preorder (h : Acyclic ts) (hids : (ts.map (·.id)).Nodup)
    (hu : u = v ∨ Below ts v u) :
    (h.preorder v).filter (·.parent = some u) = Tree.childrenIn ts u := by
  -- what a child that is not above `u` contributes besides itself
  have hrest : ∀ r, ¬ (u = r.id ∨ Below ts r.id u) →
      (r :: h.preorder r.id).filter (·.parent = some u) =
        [r].filter (·.parent = some u) := fun r hr => by
    rw [List.filter_cons, List.filter_cons, h.filter_preorder_of_not hids hr, List.filter_nil]
  induction v using h.wellFounded_swap.induction with
  | _ v ih =>
    rw [h.preorder_eq v, List.filter_flatMap]
    rcases hu with rfl | hu
    · -- each child of the task at the top, and nothing below the child
      have hchild : ∀ r ∈ Tree.childrenIn ts u,
          (r :: h.preorder r.id).filter (·.parent = some u) = [r] := by
        intro r hr
        obtain ⟨hr, hp⟩ := mem_childrenIn.1 hr
        have hbelow : Below ts u r.id := .child hr hp
        rw [hrest r, List.filter_eq_self.2 (by simp [hp])]
        rintro (hself | habove)
        · exact h u (hself ▸ hbelow)
        · exact h u (hbelow.trans habove)
      rw [List.flatMap_congr hchild, List.flatMap_singleton']
    · -- the one child that is above the task has them all
      have huv : v ≠ u := fun he => h u (he ▸ hu)
      obtain ⟨w, ⟨s, hs, hps, rfl⟩, hsu⟩ := TransGen.head'_iff.1 hu
      have hsu : u = s.id ∨ Below ts s.id u := reflTransGen_iff_eq_or_transGen.1 hsu
      have hnone : ∀ r ∈ Tree.childrenIn ts v, r ≠ s →
          (r :: h.preorder r.id).filter (·.parent = some u) = [] := by
        intro r hr hne
        obtain ⟨hr, hpr⟩ := mem_childrenIn.1 hr
        rw [hrest r fun hur => h.below_siblings_disjoint hids hr hpr hs hps hne hur hsu]
        simp [hpr, huv]
      have hone : (s :: h.preorder s.id).filter (·.parent = some u) = Tree.childrenIn ts u := by
        rw [List.filter_cons_of_neg (by simp [hps, huv])]
        exact ih s.id (.of_mem hs hps) hsu
      rw [flatMap_of_forall_ne (nodup_childrenIn hids v) (mem_childrenIn.2 ⟨hs, hps⟩) hnone, hone]

/-! ### Breaking off -/

/-- Behind the place where a pre-order is broken off, there are the children of all tasks that are
there. -/
theorem mem_gone_of_parent (h : Acyclic ts) (hids : (ts.map (·.id)).Nodup)
    (hsplit : h.preorder v = kept ++ gone) (hs : s ∈ gone) (ht : t ∈ ts)
    (hp : t.parent = some s.id) : t ∈ gone := by
  have hmem : ∀ r, r ∈ gone → r ∈ h.preorder v := fun r hr =>
    hsplit ▸ List.mem_append_right kept hr
  obtain ⟨hstored, hbelow⟩ := (h.mem_preorder hids).1 (hmem s hs)
  have hnd := h.nodup_preorder hids v
  rcases h.parent_sublist_preorder (h.mem_preorder_of_parent (hmem s hs) ht hp) with
    htop | ⟨r, hr, hbefore⟩
  · obtain rfl : s.id = v := Option.some.inj (hp.symm.trans htop)
    exact absurd hbelow (h s.id)
  · have hr' := hbefore.subset List.mem_cons_self
    obtain rfl : r = s := List.inj_on_of_nodup_map hids ((h.mem_preorder hids).1 hr').1 hstored
      (Option.some.inj (hr.symm.trans hp))
    rw [hsplit] at hnd hbefore
    exact mem_back_of_sublist hnd hbefore hs

/-- Of the children of a task, the first ones are before the place where the pre-order is broken
off. -/
theorem childrenIn_eq_append (h : Acyclic ts) (hids : (ts.map (·.id)).Nodup)
    (hsplit : h.preorder v = kept ++ gone) (hu : u = v ∨ Below ts v u) :
    Tree.childrenIn ts u =
      kept.filter (·.parent = some u) ++ gone.filter (·.parent = some u) := by
  rw [← h.filter_preorder hids hu, hsplit, List.filter_append]

end Acyclic

end Agenda
