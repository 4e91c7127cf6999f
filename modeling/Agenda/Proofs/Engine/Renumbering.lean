import Agenda.Engine.Siblings
import Agenda.Proofs.Catalog.Sound
import Mathlib.Data.List.InsertIdx

/-!
# Renumbering a group of siblings

What the two lists of new places say.  `closing` lists the siblings behind a place that becomes
free, each with the place before its own, and `renumbering` the tasks between the old and the new
place of a task that moves, each with the place at which it then stands.  Neither lists a task
twice, so each new place takes effect as it stands (`placed_closing`, `placed_renumbering`), and
both leave a dense group dense: `Catalog.Sound.pruned` for a subtree that goes away,
`Catalog.Sound.moved` for a task that moves.
-/

namespace Agenda

variable {now : Instant} {group : List Task} {s t : Task}

namespace Siblings

/-! ### Closing a gap -/

theorem mem_closing {gone : Int} {o : Uuid × Int} :
    o ∈ closing group gone ↔ ∃ s ∈ group, gone < s.order ∧ o = (s.id, s.order - 1) := by
  simp only [closing, List.mem_map, List.mem_filter, decide_eq_true_eq, and_assoc]
  exact exists_congr fun s => and_congr_right fun _ => and_congr_right fun _ => eq_comm

theorem nodup_closing (h : (group.map (·.id)).Nodup) (gone : Int) :
    ((closing group gone).map (·.1)).Nodup := by
  have hids : (closing group gone).map (·.1) = (group.filter (gone < ·.order)).map (·.id) := by
    rw [closing, List.map_map]
    rfl
  rw [hids]
  exact (List.filter_sublist.map _).nodup h

/-- Closing a gap moves up by one what is behind it, and nothing else. -/
theorem placed_closing_eq (h : (group.map (·.id)).Nodup) (hs : s ∈ group) (gone : Int) :
    s.placed now (closing group gone) =
      if gone < s.order then { s with order := s.order - 1, updated := now } else s := by
  split
  · rename_i hlt
    exact Task.placed_of_mem (nodup_closing h gone) (mem_closing.2 ⟨s, hs, hlt, rfl⟩)
  · rename_i hle
    apply Task.placed_of_notMem
    intro hmem
    obtain ⟨o, ho, hid⟩ := List.mem_map.1 hmem
    obtain ⟨s', hs', hlt, rfl⟩ := mem_closing.1 ho
    obtain rfl : s' = s := List.inj_on_of_nodup_map h hs' hs hid
    exact hle hlt

theorem placed_closing (h : (group.map (·.id)).Nodup) (hs : s ∈ group) (gone : Int) :
    (s.placed now (closing group gone)).order = closed gone s.order := by
  rw [placed_closing_eq h hs, closed]
  split <;> rfl

/-- Closing a gap leaves alone the tasks of other groups. -/
theorem placed_closing_of_notMem (hs : ∀ s' ∈ group, s'.id ≠ s.id) (gone : Int) :
    s.placed now (closing group gone) = s := by
  refine Task.placed_of_notMem fun hmem => ?_
  obtain ⟨o, ho, hid⟩ := List.mem_map.1 hmem
  obtain ⟨s', hs', -, rfl⟩ := mem_closing.1 ho
  exact hs s' hs' hid

/-! ### Moving one task -/

variable {source target : Nat}

theorem moved_eq (hs : source < group.length) :
    moved group source target = (group.eraseIdx source).insertIdx target group[source] := by
  rw [moved, List.getElem?_eq_getElem hs]

theorem perm_moved (hs : source < group.length) (ht : target < group.length) :
    (moved group source target).Perm group := by
  have hlen : target ≤ (group.eraseIdx source).length := by
    rw [List.length_eraseIdx_of_lt hs]
    omega
  rw [moved_eq hs]
  exact (List.perm_insertIdx _ _ hlen).trans (List.getElem_cons_eraseIdx_perm hs)

/-- Outside of the two places everything stays where it is. -/
theorem getElem?_moved (hs : source < group.length) {i : Nat}
    (hi : i < min source target ∨ max source target < i) :
    (moved group source target)[i]? = group[i]? := by
  rw [moved_eq hs, List.getElem?_insertIdx]
  rcases hi with hi | hi
  · rw [if_pos (by omega), List.getElem?_eraseIdx_of_lt (by omega)]
  · rw [if_neg (by omega), if_neg (by omega), List.getElem?_eraseIdx_of_ge (by omega)]
    congr 1
    omega

/-- The tasks between the two places are listed with the places at which they then stand. -/
theorem mem_renumbering {o : Uuid × Int} : o ∈ renumbering group source target ↔
    ∃ i s, min source target ≤ i ∧ i ≤ max source target ∧
      (moved group source target)[i]? = some s ∧ o = (s.id, (i : Int)) := by
  simp only [renumbering, List.mem_map, Prod.exists, List.mem_zipIdx_iff_getElem?,
    List.getElem?_take, List.getElem?_drop]
  constructor
  · -- an offset counts from the lower place
    rintro ⟨s, offset, hget, rfl⟩
    split at hget
    · exact ⟨min source target + offset, s, by omega, by omega, hget, rfl⟩
    · cases hget
  · rintro ⟨i, s, hlow, hhigh, hget, rfl⟩
    refine ⟨s, i - min source target, ?_, ?_⟩
    · rw [if_pos (by omega), Nat.add_sub_cancel' hlow, hget]
    · rw [Nat.add_sub_cancel' hlow]

theorem nodup_renumbering (h : (group.map (·.id)).Nodup) (hs : source < group.length)
    (ht : target < group.length) : ((renumbering group source target).map (·.1)).Nodup := by
  have hsub : ((renumbering group source target).map (·.1)).Sublist
      ((moved group source target).map (·.id)) := by
    have hids : (renumbering group source target).map (·.1) =
        (((moved group source target).drop (min source target)).take
          (max source target + 1 - min source target)).map (·.id) := by
      rw [renumbering, List.map_map]
      conv_rhs => rw [← List.zipIdx_map_fst 0
        (((moved group source target).drop (min source target)).take
          (max source target + 1 - min source target)), List.map_map]
      rfl
    rw [hids]
    exact ((List.take_sublist _ _).trans (List.drop_sublist _ _)).map _
  exact hsub.nodup ((((perm_moved hs ht).map _).nodup_iff).2 h)

/-- A task that moves and those that make room for it get the places at which they then stand, and
nothing else is moved. -/
theorem placed_renumbering_eq (h : (group.map (·.id)).Nodup) (hs : source < group.length)
    (ht : target < group.length) {i : Nat} (hi : (moved group source target)[i]? = some s) :
    s.placed now (renumbering group source target) =
      if min source target ≤ i ∧ i ≤ max source target then
        { s with order := i, updated := now } else s := by
  split
  · rename_i hin
    exact Task.placed_of_mem (nodup_renumbering h hs ht)
      (mem_renumbering.2 ⟨i, s, hin.1, hin.2, hi, rfl⟩)
  · rename_i hout
    have hnd : ((moved group source target).map (·.id)).Nodup :=
      (((perm_moved hs ht).map _).nodup_iff).2 h
    apply Task.placed_of_notMem
    -- the list names the tasks at other places only
    intro hmem
    obtain ⟨o, ho, hid⟩ := List.mem_map.1 hmem
    obtain ⟨i', s', hlow, hhigh, hget, rfl⟩ := mem_renumbering.1 ho
    obtain ⟨hlt, rfl⟩ := List.getElem?_eq_some_iff.1 hi
    obtain ⟨hlt', rfl⟩ := List.getElem?_eq_some_iff.1 hget
    have heq : i' = i := by
      have hlow' : i' < ((moved group source target).map (·.id)).length := by simpa using hlt'
      have hhigh' : i < ((moved group source target).map (·.id)).length := by simpa using hlt
      have hsame : ((moved group source target).map (·.id))[i'] =
          ((moved group source target).map (·.id))[i] := by simpa using hid
      exact hnd.getElem_inj_iff.1 hsame
    exact hout (heq ▸ ⟨hlow, hhigh⟩)

/-- **Each task stands where its order says.**  In a group counted from zero, a task that moves
and those that make room for it get the places at which they then stand. -/
theorem placed_renumbering (h : (group.map (·.id)).Nodup)
    (horder : ∀ (i : Nat) (hi : i < group.length), group[i].order = i)
    (hs : source < group.length) (ht : target < group.length) {i : Nat}
    (hi : (moved group source target)[i]? = some s) :
    (s.placed now (renumbering group source target)).order = i := by
  rw [placed_renumbering_eq h hs ht hi]
  split
  · rfl
  · -- outside of the two places the order is the old one
    have hout : i < min source target ∨ max source target < i := by omega
    rw [getElem?_moved hs hout] at hi
    obtain ⟨hlt, rfl⟩ := List.getElem?_eq_some_iff.1 hi
    exact horder i hlt

/-- In the new succession the orders are the places. -/
theorem map_order_moved (h : (group.map (·.id)).Nodup)
    (horder : ∀ (i : Nat) (hi : i < group.length), group[i].order = i)
    (hs : source < group.length) (ht : target < group.length) :
    ((moved group source target).map (Task.placed now (renumbering group source target))).map
      (·.order) = places (moved group source target).length := by
  refine List.ext_getElem (by simp) fun i hi hi' => ?_
  rw [List.getElem_map, List.getElem_map, getElem_places hi']
  exact placed_renumbering h horder hs ht (List.getElem?_eq_getElem _)

/-- What renumbering makes of the new succession. -/
theorem map_placed_moved (h : (group.map (·.id)).Nodup) (hs : source < group.length)
    (ht : target < group.length) :
    (moved group source target).map (Task.placed now (renumbering group source target)) =
      (moved group source target).mapIdx fun i s =>
        if min source target ≤ i ∧ i ≤ max source target then
          { s with order := i, updated := now } else s := by
  refine List.ext_getElem (by simp) fun i hi _ => ?_
  rw [List.length_map] at hi
  rw [List.getElem_map, List.getElem_mapIdx]
  exact placed_renumbering_eq h hs ht (List.getElem?_eq_getElem hi)

/-- The task that moves gets the place that it moves to. -/
theorem placed_renumbering_self (h : (group.map (·.id)).Nodup) (hs : source < group.length)
    (ht : target < group.length) : group[source].placed now (renumbering group source target) =
      { group[source] with order := target, updated := now } := by
  have hlength : target ≤ (group.eraseIdx source).length := by
    rw [List.length_eraseIdx_of_lt hs]
    omega
  have hat : (moved group source target)[target]? = some group[source] := by
    rw [moved_eq hs, List.getElem?_insertIdx_self, if_pos hlength]
  exact Task.placed_of_mem (nodup_renumbering h hs ht)
    (mem_renumbering.2 ⟨target, _, Nat.min_le_right .., Nat.le_max_right .., hat, rfl⟩)

/-- Moving a task leaves alone the tasks of other groups. -/
theorem placed_renumbering_of_notMem (hs : source < group.length) (ht : target < group.length)
    (hnot : ∀ s' ∈ group, s'.id ≠ s.id) : s.placed now (renumbering group source target) = s := by
  refine Task.placed_of_notMem fun hmem => ?_
  obtain ⟨o, ho, hid⟩ := List.mem_map.1 hmem
  obtain ⟨i, s', -, -, hget, rfl⟩ := mem_renumbering.1 ho
  exact hnot s' ((perm_moved hs ht).mem_iff.1 (List.mem_of_getElem? hget)) hid

/-- A moved task makes a dense group dense again. -/
theorem isDense_moved (h : (group.map (·.id)).Nodup)
    (horder : ∀ (i : Nat) (hi : i < group.length), group[i].order = i)
    (hs : source < group.length) (ht : target < group.length) :
    IsDense (group.map (Task.placed now (renumbering group source target))) := by
  have hperm := (perm_moved hs ht).map (Task.placed now (renumbering group source target))
  refine IsDense.perm ?_ hperm
  rw [IsDense, map_order_moved h horder hs ht, List.length_map]

theorem clamp_bounds (size : Nat) (h : 0 < size) (target : Int) :
    0 ≤ clamp size target ∧ clamp size target < size := by
  unfold clamp
  omega

end Siblings

/-! ### What becomes of a catalog -/

namespace Catalog

variable {B : Nat} {c : Catalog}

/-- A task and everything below it, by their identifiers. -/
def subtree (c : Catalog) (t : Task) : List Uuid := t.id :: (c.descendants t.id).map (·.id)

theorem mem_subtree (hids : c.UniqueIds) (h : Acyclic c.tasks) (ht : t ∈ c.tasks) :
    ∀ s ∈ c.tasks, s.id ∈ c.subtree t ↔ s.id = t.id ∨ Below c.tasks t.id s.id := by
  intro s hs
  rw [subtree, List.mem_cons, List.mem_map]
  refine or_congr Iff.rfl ⟨?_, fun hb => ⟨s, (mem_descendants hids h ht).2 ⟨hs, hb⟩, rfl⟩⟩
  rintro ⟨s', hs', hid⟩
  obtain ⟨-, hb⟩ := (mem_descendants hids h ht).1 hs'
  rwa [← hid]

/-- The catalog without a task and everything below it, the siblings behind the task moved up. -/
def pruned (now : Instant) (t : Task) (c : Catalog) : Catalog :=
  (c.without (c.subtree t)).revise
    (Task.placed now (Siblings.closing (c.ranked t.group) t.order))

/-- The catalog with a task at another place of its group, or as it is if the task is there
already. -/
def moved (now : Instant) (t : Task) (target : Int) (c : Catalog) : Catalog :=
  let place := Siblings.clamp (c.ranked t.group).length target
  if place = t.order then c
  else c.revise (Task.placed now
    (Siblings.renumbering (c.ranked t.group) t.order.toNat place.toNat))

theorem moved_of_stays {target : Int}
    (h : Siblings.clamp (c.ranked t.group).length target = t.order) :
    c.moved now t target = c := if_pos h

theorem moved_of_moves {target : Int}
    (h : Siblings.clamp (c.ranked t.group).length target ≠ t.order) :
    c.moved now t target = c.revise (Task.placed now (Siblings.renumbering (c.ranked t.group)
      t.order.toNat (Siblings.clamp (c.ranked t.group).length target).toNat)) := if_neg h

/-- The catalog with a task at another place of its group, wherever in the group the task stands and
whatever the orders are.  A task that is alone in its group stays as it is. -/
def relocated (now : Instant) (t : Task) (target : Int) (c : Catalog) : Catalog :=
  let group := c.ranked t.group
  let place := Siblings.clamp group.length target
  if group.length ≤ 1 ∨ place = t.order then c
  else c.revise (Task.placed now
    (Siblings.renumbering group (group.findIdx (·.id = t.id)) place.toNat))

theorem relocated_of_stays {target : Int} (h : (c.ranked t.group).length ≤ 1 ∨
    Siblings.clamp (c.ranked t.group).length target = t.order) :
    c.relocated now t target = c := if_pos h

theorem relocated_of_moves {target : Int} (h : ¬ ((c.ranked t.group).length ≤ 1 ∨
    Siblings.clamp (c.ranked t.group).length target = t.order)) :
    c.relocated now t target = c.revise (Task.placed now
      (Siblings.renumbering (c.ranked t.group) ((c.ranked t.group).findIdx (·.id = t.id))
        (Siblings.clamp (c.ranked t.group).length target).toNat)) := if_neg h

/-- Wherever a task is put, the catalog stays as it is or some tasks get other places. -/
theorem relocated_cases (now : Instant) (t : Task) (target : Int) (c : Catalog) :
    c.relocated now t target = c ∨
      ∃ orders, c.relocated now t target = c.revise (Task.placed now orders) := by
  by_cases hstays : (c.ranked t.group).length ≤ 1 ∨
      Siblings.clamp (c.ranked t.group).length target = t.order
  · exact .inl (relocated_of_stays hstays)
  · exact .inr ⟨_, relocated_of_moves hstays⟩

/-- The order of a task once it is at another place of its group. -/
def placeFor (c : Catalog) (t : Task) (target : Int) : Int :=
  if (c.ranked t.group).length ≤ 1 then t.order
  else Siblings.clamp (c.ranked t.group).length target

/-- Among its siblings a task is found where it stands. -/
theorem exists_findIdx_ranked (hids : c.UniqueIds) (ht : t ∈ c.tasks) :
    ∃ h : (c.ranked t.group).findIdx (·.id = t.id) < (c.ranked t.group).length,
      (c.ranked t.group)[(c.ranked t.group).findIdx (·.id = t.id)] = t := by
  have hmem : t ∈ c.ranked t.group := mem_ranked.2 ⟨ht, rfl⟩
  have hlt : (c.ranked t.group).findIdx (·.id = t.id) < (c.ranked t.group).length :=
    List.findIdx_lt_length_of_exists ⟨t, hmem, decide_eq_true rfl⟩
  have hfound := List.findIdx_getElem (w := hlt)
  rw [decide_eq_true_eq] at hfound
  exact ⟨hlt, hids.eq (mem_ranked.1 (List.getElem_mem hlt)).1 ht hfound⟩

/-- In a dense group a task stands at the place that its order names. -/
theorem findIdx_ranked (hids : c.UniqueIds) (hdense : IsDense (c.members t.group))
    (ht : t ∈ c.tasks) : (c.ranked t.group).findIdx (·.id = t.id) = t.order.toNat := by
  obtain ⟨hlt, hsame⟩ := exists_findIdx_ranked hids ht
  have horder := hdense.order_getElem_sortOn hlt
  change ((c.ranked t.group)[(c.ranked t.group).findIdx (·.id = t.id)]).order = _ at horder
  rw [hsame] at horder
  omega

/-- In a dense group, this is moving the task from the place that its order names. -/
theorem relocated_eq_moved (hids : c.UniqueIds) (hdense : IsDense (c.members t.group))
    (ht : t ∈ c.tasks) (now : Instant) (target : Int) :
    c.relocated now t target = c.moved now t target := by
  have hbounds := hdense.order_bounds (mem_members.2 ⟨ht, rfl⟩)
  rw [← length_ranked] at hbounds
  by_cases hplace : Siblings.clamp (c.ranked t.group).length target = t.order
  · rw [relocated_of_stays (.inr hplace), moved_of_stays hplace]
  · have hmany : ¬ (c.ranked t.group).length ≤ 1 := by
      intro hone
      apply hplace
      unfold Siblings.clamp
      omega
    rw [relocated_of_moves (not_or.2 ⟨hmany, hplace⟩), findIdx_ranked hids hdense ht,
      moved_of_moves hplace]

/-- The new places of siblings are within the bounds of the old ones. -/
theorem Tidy.closing_bounds (h : c.Tidy B) (ht : t ∈ c.tasks) {g : Group} :
    ∀ o ∈ Siblings.closing (c.ranked g) t.order, 0 ≤ o.2 ∧ o.2 < B := by
  intro o ho
  obtain ⟨s, hs, hlt, rfl⟩ := Siblings.mem_closing.1 ho
  have hlow := (Task.errors_eq_nil.1 (h.tasks t ht)).2
  have hhigh := h.orders s (mem_ranked.1 hs).1
  dsimp only
  omega

/-- Removing a subtree takes no task away from below a task that stays. -/
theorem WellFormed.pruned (h : c.WellFormed) (now : Instant) (ht : t ∈ c.tasks) :
    (c.pruned now t).WellFormed := by
  have hD := mem_subtree h.ids h.acyclic ht
  have hkeep := KeepsTree.placed now (Siblings.closing (c.ranked t.group) t.order)
  refine (h.without fun s hs u hu hp => ?_).revise hkeep
  -- a child of a task that goes is below the root of what goes
  refine (hD s hs).2 (.inr ?_)
  obtain ⟨r, hr, rfl, -⟩ := h.parent_stored s hs u hp
  rcases (hD r hr).1 hu with hid | hb
  · exact hid ▸ .child hs hp
  · exact hb.trans (.child hs hp)

namespace Dense

/-- The place of a task of a dense group, and the one that it moves to, are places in the group. -/
theorem place_lt (h : c.Dense) (ht : t ∈ c.tasks) (target : Int) :
    0 ≤ t.order ∧ t.order.toNat < (c.ranked t.group).length ∧
      0 ≤ Siblings.clamp (c.ranked t.group).length target ∧
      (Siblings.clamp (c.ranked t.group).length target).toNat < (c.ranked t.group).length := by
  have hsource := (h t.group).order_bounds (mem_members.2 ⟨ht, rfl⟩)
  rw [← length_ranked] at hsource
  have htarget := Siblings.clamp_bounds (c.ranked t.group).length (by omega) target
  omega

/-- **Removing a subtree** keeps a catalog dense. -/
theorem pruned (h : c.Dense) (hforest : c.Forest) (now : Instant) (ht : t ∈ c.tasks) :
    (c.pruned now t).Dense := by
  have hids := hforest.ids
  have hD := mem_subtree hids hforest.acyclic ht
  have hkeep := KeepsTree.placed now (Siblings.closing (c.ranked t.group) t.order)
  refine h.prune hids hforest.acyclic ht hD hkeep (fun s hs hg => ?_) (fun s hs hg => ?_)
  · exact Siblings.placed_closing (hids.nodup_ranked _) (mem_ranked.2 ⟨hs, hg⟩) _
  · rw [Siblings.placed_closing_of_notMem (hids.ne_of_mem_ranked hs hg)]

/-- Moving a task leaves other groups alone. -/
theorem members_moved (h : c.Dense) (hids : c.UniqueIds) (now : Instant) (ht : t ∈ c.tasks)
    (target : Int) {g : Group} (hg : g ≠ t.group) :
    (c.moved now t target).members g = c.members g := by
  by_cases hplace : Siblings.clamp (c.ranked t.group).length target = t.order
  · rw [moved_of_stays hplace]
  · obtain ⟨-, hs, -, hp⟩ := h.place_lt ht target
    rw [moved_of_moves hplace, members_revise (.placed now _)]
    refine (List.map_congr_left fun s hmem => ?_).trans (List.map_id _)
    obtain ⟨hstored, rfl⟩ := mem_members.1 hmem
    exact Siblings.placed_renumbering_of_notMem hs hp (hids.ne_of_mem_ranked hstored hg)

/-- **Moving a task** keeps a catalog dense. -/
theorem moved (h : c.Dense) (hids : c.UniqueIds) (now : Instant) (ht : t ∈ c.tasks)
    (target : Int) : (c.moved now t target).Dense := by
  by_cases hplace : Siblings.clamp (c.ranked t.group).length target = t.order
  · rw [moved_of_stays hplace]
    exact h
  · obtain ⟨-, hs, -, hp⟩ := h.place_lt ht target
    intro g
    -- the group of the task is renumbered, and all others are left alone
    by_cases hg : g = t.group
    · subst hg
      rw [moved_of_moves hplace, members_revise (.placed now _)]
      refine IsDense.perm ?_ ((c.perm_ranked t.group).map _)
      exact Siblings.isDense_moved (hids.nodup_ranked _)
        (fun i hi => (h t.group).order_getElem_sortOn hi) hs hp
    · rw [h.members_moved hids now ht target hg]
      exact h g

end Dense

namespace Sound

/-- **Removing a subtree** keeps a catalog sound. -/
theorem pruned (h : c.Sound) (now : Instant) (ht : t ∈ c.tasks) : (c.pruned now t).Sound where
  wellFormed := h.wellFormed.pruned now ht
  dense := h.dense.pruned h.wellFormed.forest now ht
  names := by
    intro s' hs'
    obtain ⟨s, hs, rfl⟩ := List.mem_map.1 hs'
    rw [Task.placed_name]
    exact h.names s (mem_without.1 hs).1
  projects := h.projects

/-- **Moving a task** keeps a catalog sound. -/
theorem moved (h : c.Sound) (now : Instant) (ht : t ∈ c.tasks) (target : Int) :
    (c.moved now t target).Sound := by
  have hdense := h.dense.moved h.wellFormed.ids now ht target
  by_cases hplace : Siblings.clamp (c.ranked t.group).length target = t.order
  · rw [moved_of_stays hplace]
    exact h
  · rw [moved_of_moves hplace] at hdense ⊢
    refine ⟨h.wellFormed.revise (.placed now _), hdense, fun s' hs' => ?_, h.projects⟩
    obtain ⟨s, hs, rfl⟩ := List.mem_map.1 hs'
    rw [Task.placed_name]
    exact h.names s hs

end Sound

end Catalog

end Agenda
