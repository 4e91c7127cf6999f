import Agenda.Proofs.Catalog.Basic
import Mathlib.Data.Fintype.EquivFin
import Mathlib.Data.List.Perm.Subperm
import Mathlib.Logic.Relation

/-!
# Parents, descendants and the pre-order

Tasks name their parents, and that is all there is of the tree.  `Link ts u v` says that the task
`v` names the parent `u`, `Below ts u v` that a chain of such links leads from `u` down to `v`,
and `Acyclic ts` that no chain leads back to where it began; the parents need not be stored.

Without cycles the links are well-founded in both directions.  Upwards this gives an induction
from the roots, downwards the recursive list `Acyclic.preorder`: for each child in ascending order
the child, followed by the list of the child.  Its elements are the tasks below (`mem_preorder`),
each of them once (`nodup_preorder`), because the subtrees of two siblings share no task
(`below_siblings_disjoint`).

**The walk** (`descendants_eq_preorder`): the stack of pending tasks gives exactly that list.  With
nothing to bound it, the walk would come to its end all the same (`Walk`, `walk_preorder`), and the
number of stored tasks is enough steps for it.
-/

namespace Agenda

open Relation

/-- There are finitely many words of a width.  The width stays a variable here, so that nothing
tries to count the words of 128 bits. -/
instance finite_bitVec (width : Nat) : Finite (BitVec width) :=
  Finite.of_injective BitVec.toFin fun _ _ h => BitVec.eq_of_toFin_eq h

instance : Finite Uuid :=
  Finite.of_injective Uuid.bits fun u v h => by
    cases u
    cases v
    exact congrArg Uuid.mk h

variable {ts : List Task} {u v w : Uuid} {s t : Task}

/-- A task of a list has this identifier and names this parent. -/
def Link (ts : List Task) (u v : Uuid) : Prop := ∃ t ∈ ts, t.parent = some u ∧ t.id = v

/-- A chain of parents leads from one identifier down to another. -/
def Below (ts : List Task) : Uuid → Uuid → Prop := TransGen (Link ts)

/-- No task is below itself. -/
def Acyclic (ts : List Task) : Prop := ∀ u, ¬ Below ts u u

theorem Link.of_mem (ht : t ∈ ts) (hp : t.parent = some u) : Link ts u t.id := ⟨t, ht, hp, rfl⟩

theorem Below.child (ht : t ∈ ts) (hp : t.parent = some u) : Below ts u t.id :=
  .single (.of_mem ht hp)

theorem Below.trans (h : Below ts u v) (h' : Below ts v w) : Below ts u w :=
  TransGen.trans h h'

/-- Fewer tasks have fewer links. -/
theorem Link.mono {ts' : List Task} (h : ts ⊆ ts') : Link ts u v → Link ts' u v := by
  rintro ⟨t, ht, hp, hid⟩
  exact ⟨t, h ht, hp, hid⟩

theorem Acyclic.mono {ts' : List Task} (h : Acyclic ts') (hsub : ts ⊆ ts') : Acyclic ts :=
  fun u hu => h u (TransGen.mono (fun _ _ => Link.mono hsub) _ _ hu)

/-- Rewriting tasks leaves the links alone if identifiers and parents stay. -/
theorem link_map {f : Task → Task} (hid : ∀ t, (f t).id = t.id)
    (hparent : ∀ t, (f t).parent = t.parent) : Link (ts.map f) u v ↔ Link ts u v := by
  constructor
  · rintro ⟨t', ht', hp, hv⟩
    obtain ⟨t, ht, rfl⟩ := List.mem_map.1 ht'
    exact ⟨t, ht, (hparent t).symm.trans hp, (hid t).symm.trans hv⟩
  · rintro ⟨t, ht, hp, hv⟩
    exact ⟨f t, List.mem_map_of_mem ht, (hparent t).trans hp, (hid t).trans hv⟩

theorem below_map {f : Task → Task} (hid : ∀ t, (f t).id = t.id)
    (hparent : ∀ t, (f t).parent = t.parent) : Below (ts.map f) u v ↔ Below ts u v := by
  have hlink : Link (ts.map f) = Link ts :=
    funext fun u => funext fun v => propext (link_map hid hparent)
  rw [Below, Below, hlink]

theorem acyclic_map {f : Task → Task} (hid : ∀ t, (f t).id = t.id)
    (hparent : ∀ t, (f t).parent = t.parent) : Acyclic (ts.map f) ↔ Acyclic ts :=
  forall_congr' fun _ => not_congr (below_map hid hparent)

/-- A new task that nothing names as its parent closes no cycle. -/
theorem Acyclic.append (h : Acyclic ts) (hself : t.parent ≠ some t.id)
    (hleaf : ∀ s ∈ ts, s.parent ≠ some t.id) : Acyclic (ts ++ [t]) := by
  have hout : ∀ v, ¬ Link (ts ++ [t]) t.id v := by
    rintro v ⟨s, hs, hp, -⟩
    rcases List.mem_append.1 hs with hs | hs
    · exact hleaf s hs hp
    · rw [List.mem_singleton.1 hs] at hp
      exact hself hp
  have hold : ∀ {u v}, Link (ts ++ [t]) u v → Link ts u v ∨ v = t.id := by
    rintro u v ⟨s, hs, hp, rfl⟩
    rcases List.mem_append.1 hs with hs | hs
    · exact .inl ⟨s, hs, hp, rfl⟩
    · exact .inr (by rw [List.mem_singleton.1 hs])
  -- A chain in the longer list is a chain in the old one, unless it ends at the new task.
  have hchain : ∀ {u v}, Below (ts ++ [t]) u v → Below ts u v ∨ v = t.id := by
    intro u v huv
    induction huv with
    | single hl => exact (hold hl).imp_left TransGen.single
    | tail _ hl ih =>
      rcases ih with ih | rfl
      · exact (hold hl).imp_left ih.tail
      · exact absurd hl (hout _)
  intro u hu
  rcases hchain hu with hu' | rfl
  · exact h u hu'
  · obtain ⟨w, hl, -⟩ := TransGen.head'_iff.1 hu
    exact hout w hl

namespace Acyclic

/-- Parents come before their children: induction from the roots. -/
theorem wellFounded (h : Acyclic ts) : WellFounded (Link ts) := by
  have : IsTrans Uuid (Below ts) := ⟨fun _ _ _ => TransGen.trans⟩
  have : Std.Irrefl (Below ts) := ⟨h⟩
  exact Subrelation.wf TransGen.single (Finite.wellFounded_of_trans_of_irrefl (Below ts))

/-- Children come before their parents: induction from the leaves. -/
theorem wellFounded_swap (h : Acyclic ts) : WellFounded (fun v u => Link ts u v) := by
  have : IsTrans Uuid (fun v u => Below ts u v) := ⟨fun _ _ _ h h' => TransGen.trans h' h⟩
  have : Std.Irrefl (fun v u => Below ts u v) := ⟨h⟩
  exact Subrelation.wf TransGen.single
    (Finite.wellFounded_of_trans_of_irrefl fun v u => Below ts u v)

end Acyclic

/-! ### Chains -/

theorem mem_childrenIn : t ∈ Tree.childrenIn ts u ↔ t ∈ ts ∧ t.parent = some u := by
  simp [Tree.childrenIn]

/-- The children of a task that is below another, or is the other, are below it. -/
theorem below_of_mem_childrenIn (hv : t.id = v ∨ Below ts v t.id)
    (hs : s ∈ Tree.childrenIn ts t.id) : Below ts v s.id := by
  obtain ⟨hs, hp⟩ := mem_childrenIn.1 hs
  rcases hv with hv | hv
  · exact hv ▸ .child hs hp
  · exact hv.trans (.child hs hp)

theorem nodup_childrenIn (hids : (ts.map (·.id)).Nodup) (u : Uuid) :
    (Tree.childrenIn ts u).Nodup := by
  rw [Tree.childrenIn, (perm_sortOn _ _).nodup_iff]
  exact (List.Nodup.of_map _ hids).filter _

/-- What is below a task is a stored task, and its parent is the task or below it. -/
theorem Below.parent (h : Below ts u v) :
    ∃ t ∈ ts, t.id = v ∧ ∃ w, t.parent = some w ∧ (w = u ∨ Below ts u w) := by
  obtain ⟨w, hw, ⟨t, ht, hp, hv⟩⟩ := TransGen.tail'_iff.1 h
  exact ⟨t, ht, hv, w, hp, reflTransGen_iff_eq_or_transGen.1 hw⟩

/-- What passes from tasks to their children passes to everything below them. -/
theorem Below.inherits {Q : Task → Prop} (hids : (ts.map (·.id)).Nodup)
    (hchildren : ∀ s ∈ ts, Q s → ∀ t ∈ ts, t.parent = some s.id → Q t) (hs : s ∈ ts) (hQ : Q s)
    (ht : t ∈ ts) (h : Below ts s.id t.id) : Q t := by
  -- down the chain, one link after another
  generalize hv : t.id = v at h
  induction h generalizing t with
  | single hl =>
    obtain ⟨r, hr, hparent, hid⟩ := hl
    obtain rfl := List.inj_on_of_nodup_map hids hr ht (hid.trans hv.symm)
    exact hchildren s hs hQ r hr hparent
  | tail hchain hl ih =>
    obtain ⟨r, hr, hparent, hid⟩ := hl
    obtain rfl := List.inj_on_of_nodup_map hids hr ht (hid.trans hv.symm)
    obtain ⟨q, hq, hqid, -⟩ := Below.parent hchain
    exact hchildren q hq (ih hq hqid) r hr (hqid ▸ hparent)

/-- Two tasks above a third: one is the other or below it. -/
theorem below_linear (hids : (ts.map (·.id)).Nodup) (hu : Below ts u w) (hv : Below ts v w) :
    u = v ∨ Below ts u v ∨ Below ts v u := by
  -- both chains end with the same link, because a task has one parent
  induction hu with
  | single hl =>
    obtain ⟨s, hs, hps, rfl⟩ := hl
    obtain ⟨t, ht, hid, w, hpt, hw⟩ := Below.parent hv
    obtain rfl : t = s := List.inj_on_of_nodup_map hids ht hs hid
    obtain rfl : w = u := Option.some.inj (hpt.symm.trans hps)
    rcases hw with rfl | hw
    · exact .inl rfl
    · exact .inr (.inr hw)
  | tail hchain hl ih =>
    obtain ⟨s, hs, hps, rfl⟩ := hl
    obtain ⟨t, ht, hid, w, hpt, hw⟩ := Below.parent hv
    obtain rfl : t = s := List.inj_on_of_nodup_map hids ht hs hid
    obtain rfl := Option.some.inj (hpt.symm.trans hps)
    rcases hw with rfl | hw
    · exact .inr (.inl hchain)
    · exact ih hw

/-- A task cannot be its sibling's descendant. -/
theorem Acyclic.not_below_sibling (h : Acyclic ts) (hids : (ts.map (·.id)).Nodup)
    (hs : s ∈ ts) (hps : s.parent = some u) (ht : t ∈ ts) (hpt : t.parent = some u) :
    ¬ Below ts s.id t.id := by
  intro hb
  obtain ⟨t', ht', hid, w, hp, hw⟩ := hb.parent
  obtain rfl : t' = t := List.inj_on_of_nodup_map hids ht' ht hid
  obtain rfl : w = u := Option.some.inj (hp.symm.trans hpt)
  rcases hw with rfl | hw
  · exact h s.id (.child hs hps)
  · exact h s.id (hw.trans (.child hs hps))

/-- **Subtrees of siblings.**  No task is in the subtrees of two siblings. -/
theorem Acyclic.below_siblings_disjoint (h : Acyclic ts) (hids : (ts.map (·.id)).Nodup)
    (hs : s ∈ ts) (hps : s.parent = some u) (ht : t ∈ ts) (hpt : t.parent = some u)
    (hne : s ≠ t) (hws : w = s.id ∨ Below ts s.id w) (hwt : w = t.id ∨ Below ts t.id w) :
    False := by
  -- in each case two siblings are the same, or one is below the other
  rcases hws with rfl | hws <;> rcases hwt with hwt | hwt
  · exact hne (List.inj_on_of_nodup_map hids hs ht hwt)
  · exact h.not_below_sibling hids ht hpt hs hps hwt
  · exact h.not_below_sibling hids hs hps ht hpt (hwt ▸ hws)
  · rcases below_linear hids hws hwt with he | hb | hb
    · exact hne (List.inj_on_of_nodup_map hids hs ht he)
    · exact h.not_below_sibling hids hs hps ht hpt hb
    · exact h.not_below_sibling hids ht hpt hs hps hb

/-! ### The pre-order -/

namespace Acyclic

/-- One step of the pre-order: each child in ascending order, followed by the tasks below it. -/
def preorderStep (ts : List Task) (u : Uuid) (below : ∀ v, Link ts u v → List Task) : List Task :=
  (Tree.childrenIn ts u).attach.flatMap fun t =>
    t.1 :: below t.1.id (.of_mem (mem_childrenIn.1 t.2).1 (mem_childrenIn.1 t.2).2)

/-- The tasks below a task: for each child in ascending order the child, followed by the tasks
below the child. -/
@[irreducible] noncomputable def preorder (h : Acyclic ts) : Uuid → List Task :=
  h.wellFounded_swap.fix (preorderStep ts)

/-- The equation that the pre-order solves. -/
theorem preorder_eq (h : Acyclic ts) (u : Uuid) :
    h.preorder u = (Tree.childrenIn ts u).flatMap fun t => t :: h.preorder t.id := by
  have hfix : h.preorder = h.wellFounded_swap.fix (preorderStep ts) := by
    unfold preorder
    rfl
  rw [hfix]
  conv_lhs => rw [h.wellFounded_swap.fix_eq, preorderStep]
  rw [List.flatMap_subtype (g := fun t => t :: h.wellFounded_swap.fix (preorderStep ts) t.id)
    fun _ _ => rfl, List.unattach_attach]

theorem mem_preorder_iff_child (h : Acyclic ts) :
    t ∈ h.preorder u ↔ ∃ s, s ∈ ts ∧ s.parent = some u ∧ (t = s ∨ t ∈ h.preorder s.id) := by
  rw [preorder_eq]
  simp only [List.mem_flatMap, mem_childrenIn, List.mem_cons, and_assoc]

/-- The children of a task of the pre-order belong to it as well. -/
theorem mem_preorder_of_parent (h : Acyclic ts) (hs : s ∈ h.preorder u) (ht : t ∈ ts)
    (hp : t.parent = some s.id) : t ∈ h.preorder u := by
  induction u using h.wellFounded_swap.induction with
  | _ u ih =>
    obtain ⟨r, hr, hpr, hsr⟩ := h.mem_preorder_iff_child.1 hs
    refine h.mem_preorder_iff_child.2 ⟨r, hr, hpr, .inr ?_⟩
    rcases hsr with rfl | hsr
    · exact h.mem_preorder_iff_child.2 ⟨t, ht, hp, .inl rfl⟩
    · exact ih r.id (.of_mem hr hpr) hsr

/-- **The elements of the pre-order** are the tasks below. -/
theorem mem_preorder (h : Acyclic ts) (hids : (ts.map (·.id)).Nodup) :
    t ∈ h.preorder u ↔ t ∈ ts ∧ Below ts u t.id := by
  constructor
  · induction u using h.wellFounded_swap.induction with
    | _ u ih =>
      intro ht
      obtain ⟨s, hs, hp, rfl | hts⟩ := h.mem_preorder_iff_child.1 ht
      · exact ⟨hs, .child hs hp⟩
      · obtain ⟨hmem, hb⟩ := ih s.id (.of_mem hs hp) hts
        exact ⟨hmem, (Below.child hs hp).trans hb⟩
  · rintro ⟨ht, hb⟩
    generalize hv : t.id = v at hb
    induction hb generalizing t with
    | single hl =>
      obtain ⟨s, hs, hp, hid⟩ := hl
      obtain rfl : s = t := List.inj_on_of_nodup_map hids hs ht (hid.trans hv.symm)
      exact h.mem_preorder_iff_child.2 ⟨s, hs, hp, .inl rfl⟩
    | tail hchain hl ih =>
      obtain ⟨s, hs, hp, hid⟩ := hl
      obtain rfl : s = t := List.inj_on_of_nodup_map hids hs ht (hid.trans hv.symm)
      obtain ⟨r, hr, hrid, -⟩ := Below.parent hchain
      exact h.mem_preorder_of_parent (ih hr hrid) hs (hrid ▸ hp)

theorem mem_cons_preorder (h : Acyclic ts) (hids : (ts.map (·.id)).Nodup) (hs : s ∈ ts)
    (ht : t ∈ s :: h.preorder s.id) : t ∈ ts ∧ (t.id = s.id ∨ Below ts s.id t.id) := by
  rcases List.mem_cons.1 ht with rfl | ht
  · exact ⟨hs, .inl rfl⟩
  · exact ((h.mem_preorder hids).1 ht).imp_right .inr

/-- **No task comes twice** in the pre-order. -/
theorem nodup_preorder (h : Acyclic ts) (hids : (ts.map (·.id)).Nodup) (u : Uuid) :
    (h.preorder u).Nodup := by
  induction u using h.wellFounded_swap.induction with
  | _ u ih =>
    rw [preorder_eq, List.nodup_flatMap]
    constructor
    · intro t ht
      obtain ⟨ht, hp⟩ := mem_childrenIn.1 ht
      refine List.nodup_cons.2 ⟨fun hmem => ?_, ih t.id (.of_mem ht hp)⟩
      exact h t.id ((h.mem_preorder hids).1 hmem).2
    · refine (nodup_childrenIn hids u).pairwise_of_forall_ne ?_
      intro s hs t ht hne x hxs hxt
      obtain ⟨hs, hps⟩ := mem_childrenIn.1 hs
      obtain ⟨ht, hpt⟩ := mem_childrenIn.1 ht
      exact h.below_siblings_disjoint hids hs hps ht hpt hne (h.mem_cons_preorder hids hs hxs).2
        (h.mem_cons_preorder hids ht hxt).2

/-- A stored task and the tasks below it are no more than all tasks. -/
theorem length_preorder_lt (h : Acyclic ts) (hids : (ts.map (·.id)).Nodup) (ht : t ∈ ts) :
    (h.preorder t.id).length < ts.length := by
  have hnd : (t :: h.preorder t.id).Nodup :=
    List.nodup_cons.2 ⟨fun hmem => h t.id ((h.mem_preorder hids).1 hmem).2,
      h.nodup_preorder hids t.id⟩
  have hsub : (t :: h.preorder t.id).Subperm ts :=
    List.subperm_of_subset hnd fun x hx => (h.mem_cons_preorder hids ht hx).1
  have hlen := hsub.length_le
  rw [List.length_cons] at hlen
  omega

end Acyclic

/-! ### The walk with a stack -/

namespace Catalog

variable {c : Catalog}

/-- The walk with nothing to bound it: from a stack, it comes to its end after a number of steps and
has listed some tasks. -/
inductive Walk (c : Catalog) (start : Uuid) : Nat → List Uuid → List Task → Prop
  | done : Walk c start 0 [] []
  | step {n : Nat} {id : Uuid} {pending : List Uuid} {listed : List Task}
      (rest : Walk c start n ((c.children id).map (·.id) ++ pending) listed) :
      Walk c start (n + 1) (id :: pending)
        ((if id = start then [] else (c.find? id).toList) ++ listed)

/-- Where the walk comes to its end, a bound does nothing to it unless it is smaller. -/
theorem Walk.go_eq {start : Uuid} {n m : Nat} {stack : List Uuid} {listed : List Task}
    (h : c.Walk start n stack listed) (hm : n ≤ m) : descendants.go c start m stack = listed := by
  induction h generalizing m with
  | done => cases m <;> rfl
  | step _ ih =>
    cases m with
    | zero => cases hm
    | succ m => rw [descendants.go, ih (Nat.le_of_succ_le_succ hm)]

/-- The walk lists the tasks of its stack, each followed by the tasks below it, if it does not meet
the task where it started.  It takes a step for each of them. -/
theorem walk_stack (hids : c.UniqueIds) (h : Acyclic c.tasks) (start : Uuid) (stack : List Task)
    (hmem : ∀ t ∈ stack, t ∈ c.tasks)
    (hstart : ∀ t ∈ stack.flatMap fun t => t :: h.preorder t.id, t.id ≠ start) :
    c.Walk start (stack.flatMap fun t => t :: h.preorder t.id).length (stack.map (·.id))
      (stack.flatMap fun t => t :: h.preorder t.id) := by
  -- on the tasks to be listed: each step lists one and puts its children on the stack in its place
  generalize hlist : (stack.flatMap fun t => t :: h.preorder t.id) = list at hstart ⊢
  induction list generalizing stack with
  | nil =>
    cases stack with
    | nil => exact .done
    | cons t pending =>
      rw [List.flatMap_cons, List.cons_append] at hlist
      exact absurd hlist (List.cons_ne_nil _ _)
  | cons s list ih =>
    cases stack with
    | nil => exact absurd hlist.symm (List.cons_ne_nil _ _)
    | cons t pending =>
      rw [List.flatMap_cons, List.cons_append] at hlist
      obtain ⟨rfl, hbehind⟩ := List.cons.inj hlist
      have hlater :
          ((c.children t.id ++ pending).flatMap fun t => t :: h.preorder t.id) = list := by
        rw [List.flatMap_append, children, ← h.preorder_eq t.id, hbehind]
      have hrest := ih (c.children t.id ++ pending) (fun s hs => ?_) hlater
        fun s hs => hstart s (List.mem_cons_of_mem _ hs)
      · rw [List.map_append] at hrest
        have hstep := hrest.step
        rwa [if_neg (hstart t List.mem_cons_self),
          hids.find?_eq_some_iff.2 ⟨hmem t List.mem_cons_self, rfl⟩] at hstep
      · rcases List.mem_append.1 hs with hs | hs
        · exact (mem_childrenIn.1 hs).1
        · exact hmem s (List.mem_cons_of_mem _ hs)

/-- From a task, stored or not, the walk lists the tasks below it as the recursion does, and takes
one step more than there are tasks to list. -/
theorem walk_preorder (hids : c.UniqueIds) (h : Acyclic c.tasks) (u : Uuid) :
    c.Walk u ((h.preorder u).length + 1) [u] (h.preorder u) := by
  have hpre : (c.children u).flatMap (fun t => t :: h.preorder t.id) = h.preorder u := by
    rw [children, ← h.preorder_eq u]
  have hrest := walk_stack hids h u (c.children u) (fun s hs => (mem_childrenIn.1 hs).1) (by
    intro s hs he
    rw [hpre] at hs
    exact h u (he ▸ ((h.mem_preorder hids).1 hs).2))
  rw [hpre, ← List.append_nil ((c.children u).map (·.id))] at hrest
  have hstep := hrest.step
  rwa [if_pos rfl, List.nil_append] at hstep

/-- **The walk is the pre-order.**  From a stored task, the walk lists the tasks below it as the
recursion does. -/
theorem descendants_eq_preorder (hids : c.UniqueIds) (h : Acyclic c.tasks) {t : Task}
    (ht : t ∈ c.tasks) : c.descendants t.id = h.preorder t.id :=
  (walk_preorder hids h t.id).go_eq (h.length_preorder_lt hids ht)

/-- **The descendants** of a stored task are the tasks below it. -/
theorem mem_descendants (hids : c.UniqueIds) (h : Acyclic c.tasks) {t d : Task}
    (ht : t ∈ c.tasks) : d ∈ c.descendants t.id ↔ d ∈ c.tasks ∧ Below c.tasks t.id d.id := by
  rw [descendants_eq_preorder hids h ht, h.mem_preorder hids]

/-- No identifier comes twice among the descendants. -/
theorem nodup_ids_descendants (hids : c.UniqueIds) (h : Acyclic c.tasks) {t : Task}
    (ht : t ∈ c.tasks) : ((c.descendants t.id).map (·.id)).Nodup := by
  apply List.Nodup.map_on
  · intro d hd e he hid
    exact hids.eq ((mem_descendants hids h ht).1 hd).1 ((mem_descendants hids h ht).1 he).1 hid
  · rw [descendants_eq_preorder hids h ht]
    exact h.nodup_preorder hids t.id

end Catalog

end Agenda
