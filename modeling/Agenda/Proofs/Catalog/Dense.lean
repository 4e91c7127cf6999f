import Agenda.Proofs.Catalog.WellFormed

/-!
# Dense groups

The tasks with one parent, or the root tasks of one project, are a group of siblings; `Task.group`
names it.  A group is dense when the orders of its `n` members are `0, 1, …, n - 1`, each once, and
a catalog is dense when all of its groups are.  The statement says nothing of how the members stand
in the list, so it is kept by every permutation (`IsDense.perm`); in the ascending list of a dense
group each task stands at the place that its order names (`IsDense.map_order_sortOn`).

Three writes keep a catalog dense: a new task goes behind its siblings (`Dense.withTask`), a
rewriting leaves the orders alone (`Dense.revise`), and a subtree goes away while the siblings
behind its root move up by one (`Dense.prune`).
-/

namespace Agenda

/-! ### Places -/

/-- The places of a number of tasks in a row. -/
def places (n : Nat) : List Int := (List.range n).map fun i : Nat => (i : Int)

@[simp] theorem length_places (n : Nat) : (places n).length = n := by
  simp [places]

theorem getElem_places {n i : Nat} (h : i < (places n).length) : (places n)[i] = i := by
  simp [places]

theorem places_succ (n : Nat) : places (n + 1) = places n ++ [(n : Int)] := by
  rw [places, List.range_succ, List.map_append]
  rfl

theorem mem_places {n : Nat} {k : Int} : k ∈ places n ↔ 0 ≤ k ∧ k < n := by
  simp only [places, List.mem_map, List.mem_range]
  constructor
  · rintro ⟨i, hi, rfl⟩
    omega
  · rintro ⟨h0, hn⟩
    exact ⟨k.toNat, by omega, by omega⟩

theorem nodup_places (n : Nat) : (places n).Nodup :=
  List.nodup_range.map fun _ _ h => Int.ofNat.inj h

theorem pairwise_places (n : Nat) : (places n).Pairwise (· ≤ ·) := by
  refine List.Pairwise.map _ (fun i j hij => ?_) List.pairwise_le_range
  omega

/-- The place of a task once the task at a place is gone. -/
def closed (gone place : Int) : Int := if gone < place then place - 1 else place

/-- With one place gone and those behind it moved up, the places are those of one task fewer. -/
theorem map_closed_places {n : Nat} {k : Int} (h0 : 0 ≤ k) (hn : k < n) :
    ((places n).erase k).map (closed k) = places (n - 1) := by
  induction n with
  | zero => omega
  | succ n ih =>
    rw [places_succ, Nat.add_sub_cancel]
    by_cases hk : k = n
    · -- the last place is gone, and nothing is behind it
      have hout : k ∉ places n := fun h => by
        have := (mem_places.1 h).2
        omega
      rw [List.erase_append_right _ hout, hk, List.erase_cons_head, List.append_nil]
      conv_rhs => rw [← List.map_id (places n)]
      refine List.map_congr_left fun j hj => ?_
      have := (mem_places.1 hj).2
      rw [closed, if_neg (by omega)]
      rfl
    · -- the last place is behind the gap and moves up
      have hin : k ∈ places n := mem_places.2 ⟨h0, by omega⟩
      obtain ⟨m, rfl⟩ : ∃ m, n = m + 1 := ⟨n - 1, by omega⟩
      have hlast : closed k ((m + 1 : Nat) : Int) = m := by
        rw [closed, if_pos (by omega)]
        omega
      rw [List.erase_append_left _ hin, List.map_append, ih (by omega), Nat.add_sub_cancel,
        places_succ m, List.map_cons, List.map_nil, hlast]

/-! ### Dense lists of tasks -/

/-- The orders of some tasks are `0, 1, …`, each once. -/
def IsDense (ts : List Task) : Prop := (ts.map (·.order)).Perm (places ts.length)

namespace IsDense

variable {ts us : List Task} {t : Task}

theorem nil : IsDense [] := List.Perm.nil

theorem perm (h : IsDense ts) (hp : ts.Perm us) : IsDense us := by
  rw [IsDense, ← hp.length_eq]
  exact (hp.map _).symm.trans h

/-- An order is a place in the group. -/
theorem order_bounds (h : IsDense ts) (ht : t ∈ ts) : 0 ≤ t.order ∧ t.order < ts.length :=
  mem_places.1 (h.mem_iff.1 (List.mem_map_of_mem ht))

/-- **Ascending means counted.**  In ascending order, the orders are the places themselves. -/
theorem map_order_sortOn (h : IsDense ts) :
    (sortOn (·.order) ts).map (·.order) = places ts.length := by
  have hperm : ((sortOn (·.order) ts).map (·.order)).Perm (places ts.length) :=
    ((perm_sortOn _ ts).map _).trans h
  have hsorted : ((sortOn (·.order) ts).map (·.order)).Pairwise (· ≤ ·) :=
    List.pairwise_map.2 (pairwise_sortOn _ ts)
  exact hperm.eq_of_pairwise (fun _ _ _ _ => Int.le_antisymm) hsorted (pairwise_places _)

theorem order_getElem_sortOn (h : IsDense ts) {i : Nat} (hi : i < (sortOn (·.order) ts).length) :
    ((sortOn (·.order) ts)[i]).order = i := by
  have hmap := h.map_order_sortOn
  have hi' : i < ((sortOn (·.order) ts).map (·.order)).length := by simpa using hi
  have hget : ((sortOn (·.order) ts).map (·.order))[i] = i := by
    simp only [hmap]
    exact getElem_places _
  rwa [List.getElem_map] at hget

/-- **Counted means ascending.**  If each task stands at the place that its order names, the list is
the ascending one. -/
theorem sortOn_eq (hp : us.Perm ts) (h : us.map (·.order) = places us.length) :
    sortOn (·.order) ts = us := by
  have hnodup : (us.map (·.order)).Nodup := h ▸ nodup_places _
  have hsorted : us.Pairwise fun a b => a.order ≤ b.order :=
    List.pairwise_map.1 (h ▸ pairwise_places _)
  have hperm : (sortOn (·.order) ts).Perm us := (perm_sortOn _ ts).trans hp.symm
  refine hperm.eq_of_pairwise (fun a b ha hb hab hba => ?_) (pairwise_sortOn _ ts) hsorted
  exact List.inj_on_of_nodup_map hnodup (hperm.mem_iff.1 ha) hb (Int.le_antisymm hab hba)

/-- A task behind all others has the next place. -/
theorem append (h : IsDense ts) (ht : t.order = ts.length) : IsDense (ts ++ [t]) := by
  rw [IsDense, List.map_append, List.length_append, List.length_singleton, places_succ]
  refine List.Perm.append h ?_
  rw [List.map_cons, List.map_nil, ht]

/-- Of tasks that stand at their places, the first ones have the first places. -/
theorem of_places_append (h : (ts ++ us).map (·.order) = places (ts ++ us).length) :
    IsDense ts := by
  have hfront : ts.map (·.order) = (places (ts ++ us).length).take ts.length := by
    rw [← h, ← List.map_take, List.take_left]
  have hplaces : (places (ts ++ us).length).take ts.length = places ts.length := by
    rw [places, ← List.map_take, List.take_range, List.length_append,
      Nat.min_eq_left (Nat.le_add_right _ _), places]
  rw [IsDense, hfront, hplaces]

/-- A rewriting that leaves the orders alone. -/
theorem map (h : IsDense ts) {f : Task → Task} (hf : ∀ t ∈ ts, (f t).order = t.order) :
    IsDense (ts.map f) := by
  have horder : (ts.map f).map (·.order) = ts.map (·.order) := by
    rw [List.map_map]
    exact List.map_congr_left hf
  rw [IsDense, horder, List.length_map]
  exact h

/-- **Closing a gap.**  A task is taken out and those behind it move up by one. -/
theorem close (h : IsDense (t :: ts)) {f : Task → Task}
    (hf : ∀ s ∈ ts, (f s).order = closed t.order s.order) : IsDense (ts.map f) := by
  have hbounds := h.order_bounds List.mem_cons_self
  have horder : (ts.map f).map (·.order) = (ts.map (·.order)).map (closed t.order) := by
    rw [List.map_map, List.map_map]
    exact List.map_congr_left hf
  have hrest : (ts.map (·.order)).Perm ((places (t :: ts).length).erase t.order) := by
    have := List.Perm.erase t.order h
    rwa [List.map_cons, List.erase_cons_head] at this
  rw [IsDense, horder, List.length_map]
  apply (hrest.map _).trans
  rw [map_closed_places hbounds.1 hbounds.2, List.length_cons, Nat.add_sub_cancel]

end IsDense

/-! ### Groups -/

/-- What siblings have in common. -/
inductive Group
  /-- They are the root tasks of a project. -/
  | roots (project : Uuid)
  /-- They are the children of a task. -/
  | children (parent : Uuid)
  deriving DecidableEq

/-- The group of siblings that a task belongs to. -/
def Task.group (t : Task) : Group :=
  match t.parent with
  | none => .roots t.project
  | some u => .children u

theorem Task.group_eq_roots {t : Task} {p : Uuid} :
    t.group = .roots p ↔ t.project = p ∧ t.parent = none := by
  unfold group
  cases t.parent <;> simp

theorem Task.group_eq_children {t : Task} {u : Uuid} :
    t.group = .children u ↔ t.parent = some u := by
  unfold group
  cases t.parent <;> simp

theorem KeepsTree.group {f : Task → Task} (hf : KeepsTree f) (t : Task) :
    (f t).group = t.group := by
  rw [Task.group, Task.group, hf.parent, hf.project]

namespace Catalog

variable {c : Catalog} {g : Group} {t : Task}

/-- The members of a group, as they were stored. -/
def members (c : Catalog) (g : Group) : List Task := c.tasks.filter (·.group = g)

/-- The members of a group in ascending order. -/
def ranked (c : Catalog) (g : Group) : List Task := sortOn (·.order) (c.members g)

@[simp] theorem mem_members : t ∈ c.members g ↔ t ∈ c.tasks ∧ t.group = g := by
  simp [members]

theorem mem_ranked : t ∈ c.ranked g ↔ t ∈ c.tasks ∧ t.group = g := by
  rw [ranked, mem_sortOn, mem_members]

theorem perm_ranked (c : Catalog) (g : Group) : (c.ranked g).Perm (c.members g) :=
  perm_sortOn _ _

@[simp] theorem length_ranked (c : Catalog) (g : Group) :
    (c.ranked g).length = (c.members g).length :=
  length_sortOn _ _

theorem roots_eq_ranked (c : Catalog) (p : Uuid) : c.roots p = c.ranked (.roots p) := by
  rw [roots, ranked, members]
  congr 1
  refine List.filter_congr fun t _ => ?_
  rw [Bool.eq_iff_iff]
  simp [Task.group_eq_roots]

theorem children_eq_ranked (c : Catalog) (u : Uuid) : c.children u = c.ranked (.children u) := by
  rw [children, Tree.childrenIn, ranked, members]
  congr 1
  refine List.filter_congr fun t _ => ?_
  rw [Bool.eq_iff_iff]
  simp [Task.group_eq_children]

theorem length_members_le (c : Catalog) (g : Group) : (c.members g).length ≤ c.tasks.length :=
  List.length_filter_le _ _

theorem UniqueIds.nodup_ranked (h : c.UniqueIds) (g : Group) :
    ((c.ranked g).map (·.id)).Nodup :=
  ((c.perm_ranked g).map _).nodup_iff.2 ((List.filter_sublist.map _).nodup h)

/-- No member of a group has the identifier of a task of another group. -/
theorem UniqueIds.ne_of_mem_ranked (h : c.UniqueIds) {s : Task} (hs : s ∈ c.tasks)
    (hg : s.group ≠ g) : ∀ r ∈ c.ranked g, r.id ≠ s.id := by
  intro r hr hid
  obtain ⟨hr, hgroup⟩ := mem_ranked.1 hr
  exact hg (h.eq hr hs hid ▸ hgroup)

theorem members_revise {f : Task → Task} (hf : KeepsTree f) (c : Catalog) (g : Group) :
    (c.revise f).members g = (c.members g).map f := by
  rw [members, revise_tasks, List.filter_map, members]
  congr 1
  exact List.filter_congr fun t _ => by simp [hf.group t]

theorem members_without (D : List Uuid) (c : Catalog) (g : Group) :
    (c.without D).members g = (c.members g).filter (·.id ∉ D) := by
  simp only [members, without, List.filter_filter]
  exact List.filter_congr fun t _ => Bool.and_comm _ _

theorem members_withTask (t : Task) (c : Catalog) (g : Group) :
    (c.withTask t).members g = if t.group = g then c.members g ++ [t] else c.members g := by
  rw [members, withTask_tasks, List.filter_append, members]
  split
  · simp [*]
  · simp [*]

/-- A sibling of a task is not below the task. -/
theorem not_below_of_group (hids : c.UniqueIds) (hacyclic : Acyclic c.tasks) {s : Task}
    (hs : s ∈ c.tasks) (ht : t ∈ c.tasks) (hg : s.group = t.group) :
    ¬ Below c.tasks t.id s.id := by
  intro hbelow
  obtain ⟨s', hs', hid, w, hp, hw⟩ := hbelow.parent
  obtain rfl := hids.eq hs' hs hid
  have hpt : t.parent = some w := by
    rw [← Task.group_eq_children, ← hg, Task.group_eq_children, hp]
  rcases hw with rfl | hw
  · exact hacyclic t.id (.child ht hpt)
  · exact hacyclic t.id (hw.trans (.child ht hpt))

/-! ### Dense catalogs -/

/-- In every group of siblings the orders are `0, 1, …`, each once. -/
def Dense (c : Catalog) : Prop := ∀ g, IsDense (c.members g)

namespace Dense

theorem empty : Catalog.empty.Dense := fun _ => .nil

/-- In ascending order, the members of a group stand in the order `0, 1, 2, …`. -/
theorem map_order_ranked (h : c.Dense) (g : Group) :
    (c.ranked g).map (·.order) = places (c.ranked g).length := by
  rw [length_ranked]
  exact (h g).map_order_sortOn

/-- A task stands at the place that its order names. -/
theorem getElem?_ranked (h : c.Dense) (ht : t ∈ c.tasks) {i : Nat} (hi : (i : Int) = t.order) :
    (c.ranked t.group)[i]? = some t := by
  obtain ⟨k, hk, hget⟩ := List.getElem_of_mem (mem_ranked.2 ⟨ht, rfl⟩)
  have horder : ((c.ranked t.group)[k]).order = k := (h t.group).order_getElem_sortOn hk
  rw [hget] at horder
  obtain rfl : i = k := by omega
  rw [List.getElem?_eq_getElem hk, hget]

/-- The orders of stored tasks are not negative, and below the number of tasks. -/
theorem order_bounds (h : c.Dense) (ht : t ∈ c.tasks) :
    0 ≤ t.order ∧ t.order < c.tasks.length := by
  have hb := (h t.group).order_bounds (mem_members.2 ⟨ht, rfl⟩)
  have := c.length_members_le t.group
  omega

theorem revise (h : c.Dense) {f : Task → Task} (hf : KeepsTree f)
    (horder : ∀ t, (f t).order = t.order) : (c.revise f).Dense := by
  intro g
  rw [members_revise hf]
  exact (h g).map fun t _ => horder t

theorem withTask (h : c.Dense) (ht : t.order = (c.members t.group).length) :
    (c.withTask t).Dense := by
  intro g
  rw [members_withTask]
  split
  · rename_i hg
    subst hg
    exact (h t.group).append ht
  · exact h g

/-- Taking out a task and everything below it takes only the task out of its group. -/
theorem members_prune (hids : c.UniqueIds) (hacyclic : Acyclic c.tasks) (ht : t ∈ c.tasks)
    {D : List Uuid} (hD : ∀ s ∈ c.tasks, s.id ∈ D ↔ s.id = t.id ∨ Below c.tasks t.id s.id) :
    (c.members t.group).Perm (t :: (c.without D).members t.group) := by
  have hmem : t ∈ c.members t.group := mem_members.2 ⟨ht, rfl⟩
  have hsame : (c.without D).members t.group = (c.members t.group).erase t := by
    have hnd : (c.members t.group).Nodup := (List.Nodup.of_map _ hids).filter _
    rw [members_without, hnd.erase_eq_filter]
    refine List.filter_congr fun s hs => ?_
    obtain ⟨hs, hgroup⟩ := mem_members.1 hs
    rw [Bool.eq_iff_iff]
    simp only [decide_eq_true_eq, bne_iff_ne, ne_eq, not_iff_not, hD s hs]
    constructor
    · rintro (hid | hbelow)
      · exact hids.eq hs ht hid
      · exact absurd hbelow (not_below_of_group hids hacyclic hs ht hgroup)
    · rintro rfl
      exact .inl rfl
  rw [hsame]
  exact List.perm_cons_erase hmem

/-- The children of a task that goes are gone. -/
theorem members_pruned_eq_nil {D : List Uuid}
    (hD : ∀ s ∈ c.tasks, s.id ∈ D ↔ s.id = t.id ∨ Below c.tasks t.id s.id) {u : Uuid}
    (hu : u = t.id ∨ Below c.tasks t.id u) : (c.without D).members (.children u) = [] := by
  rw [List.eq_nil_iff_forall_not_mem]
  intro s hs
  obtain ⟨hs, hgroup⟩ := mem_members.1 hs
  obtain ⟨hs, hsD⟩ := mem_without.1 hs
  have hlink := Below.child hs (Task.group_eq_children.1 hgroup)
  apply hsD
  apply (hD s hs).2
  rcases hu with rfl | hbelow
  · exact .inr hlink
  · exact .inr (hbelow.trans hlink)

/-- A group is left alone if the task is not in it and its members are not children of a task that
goes. -/
theorem members_pruned_eq_self (hids : c.UniqueIds) (ht : t ∈ c.tasks) {D : List Uuid}
    (hD : ∀ s ∈ c.tasks, s.id ∈ D ↔ s.id = t.id ∨ Below c.tasks t.id s.id) {g : Group}
    (hg : g ≠ t.group) (hparent : ∀ u, g = .children u → ¬ (u = t.id ∨ Below c.tasks t.id u)) :
    (c.without D).members g = c.members g := by
  rw [members_without, List.filter_eq_self]
  intro s hmem
  obtain ⟨hs, rfl⟩ := mem_members.1 hmem
  rw [decide_eq_true_eq]
  intro hsD
  rcases (hD s hs).1 hsD with hid | hbelow
  · exact hg (by rw [hids.eq hs ht hid])
  · -- the last link of the chain leads from a parent that goes
    obtain ⟨s', hs', hid, w, hp, hw⟩ := hbelow.parent
    obtain rfl := hids.eq hs' hs hid
    exact hparent w (Task.group_eq_children.2 hp) hw

/-- **Removing a subtree.**  A task and everything below it go away, and a rewriting moves the
siblings behind the task up by one and leaves the orders of all other tasks alone. -/
theorem prune (h : c.Dense) (hids : c.UniqueIds) (hacyclic : Acyclic c.tasks) (ht : t ∈ c.tasks)
    {D : List Uuid} (hD : ∀ s ∈ c.tasks, s.id ∈ D ↔ s.id = t.id ∨ Below c.tasks t.id s.id)
    {f : Task → Task} (hf : KeepsTree f)
    (hgroup : ∀ s ∈ c.tasks, s.group = t.group → (f s).order = closed t.order s.order)
    (hrest : ∀ s ∈ c.tasks, s.group ≠ t.group → (f s).order = s.order) :
    ((c.without D).revise f).Dense := by
  intro g
  rw [members_revise hf]
  by_cases hg : g = t.group
  · subst hg
    have hperm := members_prune hids hacyclic ht hD
    refine ((h t.group).perm hperm).close fun s hs => ?_
    obtain ⟨hs, hsg⟩ := mem_members.1 hs
    exact hgroup s (mem_without.1 hs).1 hsg
  by_cases hin : ∃ u, g = .children u ∧ (u = t.id ∨ Below c.tasks t.id u)
  · obtain ⟨u, rfl, hu⟩ := hin
    rw [members_pruned_eq_nil hD hu]
    exact .nil
  · rw [members_pruned_eq_self hids ht hD hg fun u hgu hu => hin ⟨u, hgu, hu⟩]
    refine (h g).map fun s hmem => ?_
    obtain ⟨hs, rfl⟩ := mem_members.1 hmem
    exact hrest s hs hg

end Dense

end Catalog

end Agenda
