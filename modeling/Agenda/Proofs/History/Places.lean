import Agenda.Proofs.History.Reach
import Agenda.Proofs.Operation.Cases

/-!
# Where siblings stand after a removal or a move

In a dense group the ascending list of the tasks says all: a task stands at the place that its order
names.  So what becomes of a group is told as what becomes of that list.

* **A removal** (`delete_exact`) takes one task out of the list.  The tasks behind it come one place
  nearer, and no other task is touched, except that everything below the task goes with it.
* **A move** (`reorder_exact`) takes one task out of the list and puts it in again at the place that
  the target names, or at the end that the target lies beyond.  The tasks from the one place to the
  other get the orders of the places at which they then stand, and no other task is touched.

The lists are known because their orders are: a list of the tasks of the group in which the orders
are `0, 1, 2, …` is the ascending one (`IsDense.sortOn_eq`).  All of this is said of records in
memory, and holds on any medium, since neither operation makes an order larger than there was room
for before, and neither gives a name (`inMemory_fits`).
-/

namespace Agenda

variable {c : Catalog} {t : Task}

/-- Taking out an element, seen through a function that tells the elements apart. -/
theorem map_erase_of_nodup {α β : Type} [DecidableEq α] [DecidableEq β] {f : α → β} {xs : List α}
    (h : (xs.map f).Nodup) {x : α} (hx : x ∈ xs) : (xs.erase x).map f = (xs.map f).erase (f x) := by
  obtain ⟨i, hi, rfl⟩ := List.getElem_of_mem hx
  have hi' : i < (xs.map f).length := by rwa [List.length_map]
  have hget : f xs[i] = (xs.map f)[i] := (List.getElem_map f).symm
  rw [hget, h.erase_getElem i hi', (List.Nodup.of_map f h).erase_getElem i hi, List.eraseIdx_map]

namespace Catalog

/-! ### Removing -/

open Classical in
/-- What goes, and what the rest becomes. -/
theorem pruned_tasks (h : c.Forest) (ht : t ∈ c.tasks) (now : Instant) :
    (c.pruned now t).tasks =
      (c.tasks.filter fun s => ¬ (s = t ∨ Below c.tasks t.id s.id)).map fun s =>
        if s.group = t.group ∧ t.order < s.order then
          { s with order := s.order - 1, updated := now } else s := by
  have hstays : (c.without (c.subtree t)).tasks =
      c.tasks.filter fun s => ¬ (s = t ∨ Below c.tasks t.id s.id) := by
    refine List.filter_congr fun s hs => decide_eq_decide.2 (not_congr ?_)
    rw [mem_subtree h.ids h.acyclic ht s hs]
    exact or_congr_left ⟨h.ids.eq hs ht, congrArg _⟩
  rw [pruned, revise_tasks, hstays]
  refine List.map_congr_left fun s hs => ?_
  have hs := (List.mem_filter.1 hs).1
  by_cases hg : s.group = t.group
  · rw [Siblings.placed_closing_eq (h.ids.nodup_ranked _) (mem_ranked.2 ⟨hs, hg⟩)]
    exact if_congr (by rw [and_iff_right hg]) rfl rfl
  · rw [if_neg fun hboth => hg hboth.1]
    exact Siblings.placed_closing_of_notMem (h.ids.ne_of_mem_ranked hs hg) _

/-- The siblings of a task that goes stay in their succession. -/
theorem ranked_pruned (h : c.Forest) (hdense : c.Dense) (ht : t ∈ c.tasks) (now : Instant) :
    (c.pruned now t).ranked t.group = ((c.ranked t.group).erase t).map fun s =>
      if t.order < s.order then { s with order := s.order - 1, updated := now } else s := by
  have hmem : t ∈ c.ranked t.group := mem_ranked.2 ⟨ht, rfl⟩
  have horders := hdense.map_order_ranked t.group
  have hnodup : ((c.ranked t.group).map (·.order)).Nodup := horders ▸ nodup_places _
  have hbounds := (hdense t.group).order_bounds (mem_members.2 ⟨ht, rfl⟩)
  rw [← length_ranked] at hbounds
  -- the same tasks stay
  have hperm : ((c.ranked t.group).erase t).Perm
      ((c.without (c.subtree t)).members t.group) := by
    have hall := (c.perm_ranked t.group).trans
      (Dense.members_prune h.ids h.acyclic ht (mem_subtree h.ids h.acyclic ht))
    have hless := hall.erase t
    rwa [List.erase_cons_head] at hless
  have hplaced : ((c.ranked t.group).erase t).map
        (Task.placed now (Siblings.closing (c.ranked t.group) t.order)) =
      ((c.ranked t.group).erase t).map fun s =>
        if t.order < s.order then { s with order := s.order - 1, updated := now } else s :=
    List.map_congr_left fun s hs =>
      Siblings.placed_closing_eq (h.ids.nodup_ranked _) (List.mem_of_mem_erase hs) _
  rw [ranked, pruned, members_revise (.placed now _), ← hplaced]
  refine IsDense.sortOn_eq (hperm.map _) ?_
  -- and their orders are the places of one task fewer
  have hclosed : (((c.ranked t.group).erase t).map
        (Task.placed now (Siblings.closing (c.ranked t.group) t.order))).map (·.order) =
      (((c.ranked t.group).map (·.order)).erase t.order).map (closed t.order) := by
    rw [← map_erase_of_nodup hnodup hmem, List.map_map, List.map_map]
    refine List.map_congr_left fun s hs => ?_
    exact Siblings.placed_closing (h.ids.nodup_ranked _) (List.mem_of_mem_erase hs) _
  rw [hclosed, horders, map_closed_places hbounds.1 hbounds.2, List.length_map,
    List.length_erase_of_mem hmem]

/-! ### Moving -/

/-- Moving a task rewrites tasks in their places in the tree. -/
theorem exists_moved_eq_revise (c : Catalog) (now : Instant) (t : Task) (target : Int) :
    ∃ f, KeepsTree f ∧ c.moved now t target = c.revise f := by
  by_cases hplace : Siblings.clamp (c.ranked t.group).length target = t.order
  · exact ⟨fun s => s, ⟨fun _ => rfl, fun _ => rfl, fun _ => rfl⟩,
      (moved_of_stays hplace).trans (revise_eq_self fun _ _ => rfl).symm⟩
  · exact ⟨_, .placed now _, moved_of_moves hplace⟩

theorem length_members_moved (c : Catalog) (now : Instant) (t : Task) (target : Int) (g : Group) :
    ((c.moved now t target).members g).length = (c.members g).length := by
  obtain ⟨f, hf, hmoved⟩ := c.exists_moved_eq_revise now t target
  rw [hmoved, members_revise hf, List.length_map]

/-- In a dense group the task comes to the place of the target, even if it is alone there. -/
theorem Dense.placeFor_eq (h : c.Dense) (ht : t ∈ c.tasks) (target : Int) :
    c.placeFor t target = Siblings.clamp (c.ranked t.group).length target := by
  obtain ⟨hlow, hhigh, -⟩ := h.place_lt ht target
  rw [placeFor]
  split
  · unfold Siblings.clamp
    omega
  · rfl

/-- The group of the task afterwards: the task is taken out and put in again, and from the one place
to the other the orders are those of the places. -/
theorem ranked_moved (hids : c.UniqueIds) (hdense : c.Dense) (ht : t ∈ c.tasks) (now : Instant)
    (target : Int) {i j : Nat} (hi : (i : Int) = t.order)
    (hj : (j : Int) = Siblings.clamp (c.ranked t.group).length target) :
    (c.moved now t target).ranked t.group =
      (((c.ranked t.group).eraseIdx i).insertIdx j t).mapIdx fun k s =>
        if i ≠ j ∧ min i j ≤ k ∧ k ≤ max i j then { s with order := k, updated := now } else s := by
  obtain ⟨-, hlow, -, hhigh⟩ := hdense.place_lt ht target
  rw [← hi, Int.toNat_natCast] at hlow
  rw [← hj, Int.toNat_natCast] at hhigh
  have horder : ∀ (k : Nat) (hk : k < (c.ranked t.group).length), (c.ranked t.group)[k].order = k :=
    fun k hk => (hdense t.group).order_getElem_sortOn hk
  have hself : (c.ranked t.group)[i] = t :=
    (List.getElem?_eq_some_iff.1 (hdense.getElem?_ranked ht hi)).2
  by_cases hstays : i = j
  · -- nothing moves, and the list is put together as it was
    subst hstays
    have hsame := List.insertIdx_eraseIdx_getElem hlow
    rw [hself] at hsame
    rw [moved_of_stays (by rw [← hj, hi]), hsame]
    refine List.ext_getElem (by simp) fun k hk hk' => ?_
    rw [List.getElem_mapIdx, if_neg fun hne => hne.1 rfl]
  · have hmoves : Siblings.clamp (c.ranked t.group).length target ≠ t.order := by omega
    have hnodup := hids.nodup_ranked t.group
    have hmoved : Siblings.moved (c.ranked t.group) i j =
        ((c.ranked t.group).eraseIdx i).insertIdx j t := by
      rw [Siblings.moved_eq hlow, hself]
    have hperm := (Siblings.perm_moved hlow hhigh).trans (c.perm_ranked t.group)
    have horders : (((Siblings.moved (c.ranked t.group) i j).map
        (Task.placed now (Siblings.renumbering (c.ranked t.group) i j))).map (·.order)) =
        places (Siblings.moved (c.ranked t.group) i j).length :=
      Siblings.map_order_moved hnodup horder hlow hhigh
    rw [moved_of_moves hmoves, ← hj, ← hi, Int.toNat_natCast, Int.toNat_natCast, ranked,
      members_revise (.placed now _), IsDense.sortOn_eq (hperm.map _) (by rwa [List.length_map]),
      Siblings.map_placed_moved hnodup hlow hhigh, hmoved]
    simp only [ne_eq, hstays, not_false_eq_true, true_and]

end Catalog

open Catalog

open Classical in
/-- **Removing, exactly.**  If there is no such task, nothing happens and nothing is answered.
Otherwise the task and everything below it go, the siblings behind the task come one place nearer
and are dated, and the answer is the task as it was.  All groups are dense afterwards, and the
siblings of the task stand as they stood. -/
theorem delete_exact (h : c.Whole) (hdense : c.Dense) (on : Occasion) (id : Uuid) :
    ((∀ t ∈ c.tasks, t.id ≠ id) → inMemory on (.delete id) c = (.ok .nothing, c)) ∧
      (∀ t ∈ c.tasks, t.id = id → ∃ c', inMemory on (.delete id) c = (.ok (.ofTask t), c') ∧
        c'.projects = c.projects ∧
        c'.tasks = ((c.tasks.filter fun s => ¬ (s = t ∨ Below c.tasks t.id s.id)).map fun s =>
          if s.group = t.group ∧ t.order < s.order then
            { s with order := s.order - 1, updated := on.now } else s) ∧
        c'.Dense ∧
        (c'.ranked t.group).map (·.id) = ((c.ranked t.group).map (·.id)).erase t.id) ∧
      ∀ m : Medium, c.Sound → c.Fits m.limit → m.step on (.delete id) (m.holding c) =
        ((inMemory on (.delete id) c).1, m.holding (inMemory on (.delete id) c).2) := by
  have heffect := (effect_of_whole h on (.delete id)).of_delete
  refine ⟨fun hno => ?_, fun t ht hid => ?_, fun m hsound hfits => ?_⟩
  · rcases heffect with ⟨t, ht, hid, -⟩ | ⟨-, hnothing, hsame⟩
    · exact absurd hid (hno t ht)
    · exact Prod.ext hnothing hsame
  · rcases heffect with ⟨s, hs, hsid, hanswer, hpruned⟩ | ⟨hno, -⟩
    · obtain rfl := h.ids.eq hs ht (hsid.trans hid.symm)
      have hmem : s ∈ c.ranked s.group := mem_ranked.2 ⟨hs, rfl⟩
      refine ⟨c.pruned on.now s, Prod.ext hanswer hpruned, rfl, pruned_tasks h.toForest hs on.now,
        hdense.pruned h.toForest on.now hs, ?_⟩
      rw [ranked_pruned h.toForest hdense hs, ← map_erase_of_nodup (h.ids.nodup_ranked _) hmem,
        List.map_map]
      refine List.map_congr_left fun r _ => ?_
      rw [Function.comp_apply]
      split <;> rfl
    · exact absurd hid (hno t ht)
  · exact Medium.step_of_fits hsound hfits (m.seeks_of_sought rfl)
      (inMemory_fits hsound hfits rfl rfl)

/-- The first of the three things to do, and the parts of it, go from the household. -/
theorem delete_exact_sweeping :
    household.Whole ∧ household.Dense ∧
      (∀ t ∈ household.tasks, t.id = ⟨2#128⟩ →
        ∃ c', inMemory ⟨⟨9⟩, ⟨9#128⟩⟩ (.delete ⟨2#128⟩) household = (.ok (.ofTask t), c') ∧
          c'.Dense ∧ (c'.ranked t.group).map (·.id) =
            ((household.ranked t.group).map (·.id)).erase t.id) ∧
      (inMemory ⟨⟨9⟩, ⟨9#128⟩⟩ (.delete ⟨2#128⟩) household).2.tasks =
        [⟨⟨6#128⟩, "Cook", ⟨1#128⟩, none, .pending, 0, ⟨6⟩, ⟨9⟩⟩,
          ⟨⟨7#128⟩, "Wash", ⟨1#128⟩, none, .pending, 1, ⟨7⟩, ⟨9⟩⟩] := by
  have hwhole := sound_household.wellFormed.whole
  refine ⟨hwhole, sound_household.dense, fun t ht hid => ?_, by decide⟩
  obtain ⟨c', hrun, -, -, hdense, hsame⟩ :=
    (delete_exact hwhole sound_household.dense ⟨⟨9⟩, ⟨9#128⟩⟩ ⟨2#128⟩).2.1 t ht hid
  exact ⟨c', hrun, hdense, hsame⟩

/-- **Moving, exactly.**  A stored task that stands at the place `i` of its group comes to the place
`j`, the one of the target or the nearest one that there is.  The ascending list of the group is the
old one with the task taken out and put in again; the tasks from the one place to the other have the
orders of their places, and are dated, and all other tasks are as they were.  If the places are the
same, nothing changes. -/
theorem reorder_exact (h : c.Whole) (hdense : c.Dense) (ht : t ∈ c.tasks) (on : Occasion)
    (target : Int) :
    ∃ (i j : Nat) (c' : Catalog), (c.ranked t.group)[i]? = some t ∧
      (j : Int) = max 0 (min target ((c.ranked t.group).length - 1)) ∧
      inMemory on (.reorder t.id target) c = (.ok (.ofTask { t with order := j }), c') ∧
      c'.projects = c.projects ∧ c'.tasks.map (·.id) = c.tasks.map (·.id) ∧
      (c'.ranked t.group = (((c.ranked t.group).eraseIdx i).insertIdx j t).mapIdx fun k s =>
        if i ≠ j ∧ min i j ≤ k ∧ k ≤ max i j then
          { s with order := k, updated := on.now } else s) ∧
      (c'.ranked t.group).map (·.order) = places (c.ranked t.group).length ∧
      (∀ g, g ≠ t.group → c'.members g = c.members g) ∧
      (i = j → c' = c) ∧
      ∀ m : Medium, c.Sound → c.Fits m.limit → m.step on (.reorder t.id target) (m.holding c) =
        (.ok (.ofTask { t with order := j }), m.holding c') := by
  obtain ⟨hi, -, hj, -⟩ := hdense.place_lt ht target
  obtain ⟨i, hi⟩ := Int.eq_ofNat_of_zero_le hi
  obtain ⟨j, hj⟩ := Int.eq_ofNat_of_zero_le hj
  have hmoved := ranked_moved h.ids hdense ht on.now target hi.symm hj.symm
  have hdense' := hdense.moved h.ids on.now ht target
  have hlength := c.length_members_moved on.now t target
  -- the answer and the catalog of a run in memory
  have hrun : inMemory on (.reorder t.id target) c =
      (.ok (.ofTask { t with order := j }), c.moved on.now t target) := by
    obtain ⟨s, hs, hsid, hanswer, hrelocated⟩ :=
      (effect_of_whole h on (.reorder t.id target)).of_reorder (noTask?_of_mem ht)
    obtain rfl := h.ids.eq hs ht hsid
    rw [hdense.placeFor_eq hs, hj] at hanswer
    rw [relocated_eq_moved h.ids (hdense _) hs] at hrelocated
    exact Prod.ext hanswer hrelocated
  refine ⟨i, j, c.moved on.now t target, hdense.getElem?_ranked ht hi.symm, hj.symm, hrun, ?_, ?_,
    hmoved, ?_, fun g hg => hdense.members_moved h.ids on.now ht target hg,
    fun hij => moved_of_stays (by rw [hj, hi, hij]), fun m hsound hfits => ?_⟩
  · obtain ⟨f, -, hrevise⟩ := c.exists_moved_eq_revise on.now t target
    rw [hrevise, revise_projects]
  · obtain ⟨f, hf, hrevise⟩ := c.exists_moved_eq_revise on.now t target
    rw [hrevise, revise_tasks, List.map_map]
    exact List.map_congr_left fun s _ => hf.id s
  · rw [hdense'.map_order_ranked, length_ranked, hlength, length_ranked]
  · rw [Medium.step_of_fits hsound hfits (m.seeks_of_sought rfl)
      (inMemory_fits hsound hfits rfl rfl), hrun]

/-- The last of the three things to do comes first. -/
theorem reorder_exact_washing :
    let washing : Task := ⟨⟨7#128⟩, "Wash", ⟨1#128⟩, none, .pending, 2, ⟨7⟩, ⟨7⟩⟩
    household.Whole ∧ household.Dense ∧ washing ∈ household.tasks ∧
      ∃ (j : Nat) (c' : Catalog), (j : Int) = max 0 (min (-4) (3 - 1)) ∧
        inMemory ⟨⟨9⟩, ⟨9#128⟩⟩ (.reorder washing.id (-4)) household =
          (.ok (.ofTask { washing with order := j }), c') ∧
        (c'.ranked (.roots ⟨1#128⟩)).map (fun s => (s.name, s.order, s.updated)) =
          ([("Wash", 0, ⟨9⟩), ("Sweep", 1, ⟨9⟩), ("Cook", 2, ⟨9⟩)] :
            List (Text × Int × Instant)) := by
  intro washing
  have hwhole := sound_household.wellFormed.whole
  have hmem : washing ∈ household.tasks := by decide
  obtain ⟨i, j, c', -, hj, hrun, -⟩ :=
    reorder_exact hwhole sound_household.dense hmem ⟨⟨9⟩, ⟨9#128⟩⟩ (-4)
  refine ⟨hwhole, sound_household.dense, hmem, j, c', hj, hrun, ?_⟩
  have hafter : c' = (inMemory ⟨⟨9⟩, ⟨9#128⟩⟩ (.reorder washing.id (-4)) household).2 := by
    rw [hrun]
  rw [hafter]
  decide

end Agenda
