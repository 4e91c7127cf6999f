import Agenda.Proofs.Catalog.Preorder
import Agenda.Proofs.History.Reach
import Agenda.Proofs.Operation.Faults
import Agenda.Proofs.Operation.LastWrite

/-!
# Deletions that are broken off

A deletion takes the tasks below a task out one by one, then closes the gap among the siblings of
the task, and takes out the task itself last.  Records in memory have nothing that would undo these
writes, so a deletion that some failure breaks off leaves behind what the failing request met.

**No broken tree is left** (`Operation.delete_interrupted`).  The tasks below go in the reverse of
their pre-order, so what is gone at any moment is the end of the pre-order.  Such an end has with
every task everything below it, so no task that is left lacks its parent, and of the children of
every task the first ones are left, so their places are without a gap
(`Catalog.Dense.without_gone`).  The siblings of the task are written once, by the last request but
one; only the failure of the last one finds them moved already.
-/

namespace Agenda

open Program

variable {c : Catalog} {t : Task} {now : Instant} {kept gone : List Task}

/-! ### The end of a pre-order is taken out -/

namespace Catalog

/-- **Parents stay.**  Trees from which the end of the pre-order below a task is taken out are
whole. -/
theorem Whole.without_gone (h : c.Whole) {u : Uuid} (hsplit : h.acyclic.preorder u = kept ++ gone) :
    (c.without (gone.map (·.id))).Whole where
  toForest := h.toForest.without _
  parentStored := by
    intro s hs v hv
    obtain ⟨hs, hstays⟩ := mem_without.1 hs
    obtain ⟨r, hr, rfl⟩ := h.parentStored s hs v hv
    refine ⟨r, mem_without.2 ⟨hr, fun hgone => hstays ?_⟩, rfl⟩
    obtain ⟨d, hd, hid⟩ := List.mem_map.1 hgone
    exact List.mem_map_of_mem
      (h.acyclic.mem_gone_of_parent h.ids hsplit hd hs (hid ▸ hv))

/-- A task is gone if its identifier is. -/
theorem Forest.mem_gone_iff (h : c.Forest) {u : Uuid} (hsplit : h.acyclic.preorder u = kept ++ gone)
    {s : Task} (hs : s ∈ c.tasks) : s.id ∈ gone.map (·.id) ↔ s ∈ gone := by
  refine ⟨fun hgone => ?_, List.mem_map_of_mem⟩
  obtain ⟨d, hd, hid⟩ := List.mem_map.1 hgone
  have hstored := ((h.acyclic.mem_preorder h.ids).1 (hsplit ▸ List.mem_append_right kept hd)).1
  exact h.ids.eq hstored hs hid ▸ hd

/-- A group of siblings stays as it is unless they are children of a task of the subtree. -/
theorem Forest.members_without_gone (h : c.Forest) {u : Uuid}
    (hsplit : h.acyclic.preorder u = kept ++ gone) {g : Group}
    (hg : ∀ v, g = .children v → ¬ (v = u ∨ Below c.tasks u v)) :
    (c.without (gone.map (·.id))).members g = c.members g := by
  rw [members_without, List.filter_eq_self]
  intro s hmember
  obtain ⟨hs, rfl⟩ := mem_members.1 hmember
  rw [decide_eq_true_eq, h.mem_gone_iff hsplit hs]
  intro hgone
  have hbelow :=
    ((h.acyclic.mem_preorder h.ids).1 (hsplit ▸ List.mem_append_right kept hgone)).2
  obtain ⟨s', hs', hid, v, hv, habove⟩ := hbelow.parent
  obtain rfl := h.ids.eq hs' hs hid
  exact hg v (Task.group_eq_children.2 hv) habove

/-- The group of the task at the top stays as it is. -/
theorem Forest.members_group_without_gone (h : c.Forest) (ht : t ∈ c.tasks)
    (hsplit : h.acyclic.preorder t.id = kept ++ gone) :
    (c.without (gone.map (·.id))).members t.group = c.members t.group := by
  refine h.members_without_gone hsplit fun v hv habove => ?_
  have hchild := Below.child ht (Task.group_eq_children.1 hv)
  rcases habove with rfl | habove
  · exact h.acyclic t.id hchild
  · exact h.acyclic t.id (habove.trans hchild)

/-- **Places stay.**  Of the children of a task of the subtree, the first ones are left. -/
theorem Dense.without_gone (hdense : c.Dense) (h : c.Forest) {u : Uuid}
    (hsplit : h.acyclic.preorder u = kept ++ gone) : (c.without (gone.map (·.id))).Dense := by
  intro g
  by_cases hin : ∃ v, g = .children v ∧ (v = u ∨ Below c.tasks u v)
  · obtain ⟨v, rfl, hv⟩ := hin
    have hchildren : c.ranked (.children v) = kept.filter (·.parent = some v) ++
        gone.filter (·.parent = some v) :=
      (c.children_eq_ranked v).symm.trans (h.acyclic.childrenIn_eq_append h.ids hsplit hv)
    have hplaces := hdense.map_order_ranked (.children v)
    have hperm := (c.perm_ranked (.children v)).filter (·.id ∉ gone.map (·.id))
    have hmem : ∀ s ∈ c.ranked (.children v), s.id ∈ gone.map (·.id) ↔ s ∈ gone := fun s hs =>
      h.mem_gone_iff hsplit (mem_ranked.1 hs).1
    rw [← members_without] at hperm
    rw [hchildren] at hplaces hperm hmem
    have hdisjoint := List.disjoint_of_nodup_append (hsplit ▸ h.acyclic.nodup_preorder h.ids u)
    have hfront : (kept.filter (·.parent = some v)).filter (·.id ∉ gone.map (·.id)) =
        kept.filter (·.parent = some v) := by
      refine List.filter_eq_self.2 fun s hs => decide_eq_true fun hgone => ?_
      exact hdisjoint (List.mem_filter.1 hs).1 ((hmem s (List.mem_append_left _ hs)).1 hgone)
    have hback : (gone.filter (·.parent = some v)).filter (·.id ∉ gone.map (·.id)) = [] := by
      refine List.filter_eq_nil_iff.2 fun s hs hstays => of_decide_eq_true hstays ?_
      exact List.mem_map_of_mem (List.mem_filter.1 hs).1
    rw [List.filter_append, hfront, hback, List.append_nil] at hperm
    exact (IsDense.of_places_append hplaces).perm hperm
  · rw [h.members_without_gone hsplit fun v hv habove => hin ⟨v, hv, habove⟩]
    exact hdense g

/-- The task at the top stays. -/
theorem Forest.mem_without_gone (h : c.Forest) (ht : t ∈ c.tasks)
    (hsplit : h.acyclic.preorder t.id = kept ++ gone) :
    t ∈ (c.without (gone.map (·.id))).tasks := by
  refine mem_without.2 ⟨ht, fun hid => ?_⟩
  have hgone := (h.mem_gone_iff hsplit ht).1 hid
  exact h.acyclic t.id
    ((h.acyclic.mem_preorder h.ids).1 (hsplit ▸ List.mem_append_right kept hgone)).2

theorem map_id_without (c : Catalog) (D : List Uuid) :
    (c.without D).tasks.map (·.id) = (c.tasks.map (·.id)).filter (· ∉ D) := by
  rw [List.filter_map]
  rfl

end Catalog

/-! ### What the requests of a deletion meet -/

namespace Siblings

/-- In the loop over the tasks that go, a request meets the records without those before its own. -/
theorem requests_removeAll (hids : c.UniqueIds) {ds : List Task} (hds : ∀ d ∈ ds, d ∈ c.tasks)
    (hnd : (ds.map (·.id)).Nodup) :
    ∀ x ∈ (ds.forM fun d => discard (ask (.remove d.id))).requests now c,
      ∃ gone rest, ds = gone ++ rest ∧ x.2 = c.without (gone.map (·.id)) := by
  induction ds generalizing c with
  | nil => exact fun x hx => nomatch hx
  | cons d ds ih =>
    obtain ⟨hd, hds⟩ := List.forall_mem_cons.1 hds
    obtain ⟨hfirst, hnd⟩ := List.nodup_cons.1 hnd
    have hremoved : (discard (ask (.remove d.id)) : Program Unit).outcome now c =
        (.ok (), c.without [d.id]) := by
      refine (outcome_map _ _).trans ?_
      rw [outcome_ask, Catalog.answer_remove, hids.remove_of_mem hd]
      rfl
    change ∀ x ∈ (discard (ask (.remove d.id)) >>= fun _ =>
      ds.forM fun d => discard (ask (.remove d.id))).requests now c, _
    rw [requests_bind_of_ok hremoved]
    refine List.forall_mem_append.2 ⟨fun x hx => ?_, fun x hx => ?_⟩
    · refine ⟨[], d :: ds, rfl, ?_⟩
      have hone : (discard (ask (.remove d.id)) : Program Unit).requests now c =
          [(.remove d.id, c)] := requests_map _ _
      rw [hone] at hx
      obtain rfl := List.mem_singleton.1 hx
      exact c.without_nil.symm
    · have hleft : ∀ s ∈ ds, s ∈ (c.without [d.id]).tasks := fun s hs =>
        Catalog.mem_without.2 ⟨hds s hs, fun hid =>
          hfirst (List.mem_map.2 ⟨s, hs, List.mem_singleton.1 hid⟩)⟩
      obtain ⟨gone, rest, rfl, hmet⟩ := ih (hids.without _) hleft hnd x hx
      refine ⟨d :: gone, rest, rfl, ?_⟩
      rw [hmet, Catalog.without_without]
      rfl

/-- **What the requests of a removal meet.**  The last one is that for the task itself, when the gap
is closed already; all others meet the records without an end of the pre-order. -/
theorem requests_removeStored (now : Instant) (h : c.Forest) (hp : c.ParentStored t)
    (ht : t ∈ c.tasks) :
    ∃ front, (removeStored t).requests now c = front ++ [(.remove t.id,
        (c.without ((h.acyclic.preorder t.id).map (·.id))).revise
          (Task.placed now (closing (c.ranked t.group) t.order)))] ∧
      ∀ x ∈ front, ∃ kept gone, h.acyclic.preorder t.id = kept ++ gone ∧
        x.2 = c.without (gone.map (·.id)) := by
  have hlist := Catalog.descendants_eq_preorder h.ids h.acyclic ht
  obtain ⟨hleft, hparent⟩ := stays_without_descendants h.ids h.acyclic hp ht
  have hranked := ranked_without_descendants h.ids h.acyclic ht
  have hstored : ∀ d ∈ (c.descendants t.id).reverse, d ∈ c.tasks := fun d hd =>
    ((Catalog.mem_descendants h.ids h.acyclic ht).1 (List.mem_reverse.1 hd)).1
  have hnd : ((c.descendants t.id).reverse.map (·.id)).Nodup := by
    rw [List.map_reverse, List.nodup_reverse]
    exact Catalog.nodup_ids_descendants h.ids h.acyclic ht
  have hall : c.without ((c.descendants t.id).reverse.map (·.id)) =
      c.without ((c.descendants t.id).map (·.id)) :=
    Catalog.without_congr (fun id => by rw [List.map_reverse, List.mem_reverse]) c
  -- stage by stage: the list of what goes, the loop, the gap
  have hasked : (ask (.descendants t.id)).outcome now c = (.ok (c.descendants t.id), c) :=
    h.ids.about_of_mem ht _
  have hloop : ((c.descendants t.id).reverse.forM fun d => discard (ask (.remove d.id))).outcome
      now c = (.ok (), c.without ((c.descendants t.id).map (·.id))) :=
    hall ▸ (meets_removeAll (S := fun _ => True) h.ids hstored hnd fun _ => trivial).outcome_eq
  have hgap : (closeGap t).outcome now (c.without ((c.descendants t.id).map (·.id))) =
      (.ok (), (c.without ((c.descendants t.id).map (·.id))).revise
        (Task.placed now (closing (c.ranked t.group) t.order))) :=
    hranked ▸ (meets_closeGap (S := fun _ => True) (h.ids.without _) hparent hleft
      trivial trivial).outcome_eq
  have hlast : (closeGap t >>= fun _ => (ask (.remove t.id) : Program Task)).requests now
      (c.without ((c.descendants t.id).map (·.id))) =
        (closeGap t).requests now (c.without ((c.descendants t.id).map (·.id))) ++
          [(.remove t.id, (c.without ((c.descendants t.id).map (·.id))).revise
            (Task.placed now (closing (c.ranked t.group) t.order)))] :=
    requests_bind_of_ok hgap
  refine ⟨[(.descendants t.id, c)] ++
    (((c.descendants t.id).reverse.forM fun d => discard (ask (.remove d.id))).requests now c ++
      (closeGap t).requests now (c.without ((c.descendants t.id).map (·.id)))), ?_, ?_⟩
  · unfold removeStored
    rw [requests_bind_of_ok hasked, requests_bind_of_ok hloop, ← hlist, List.append_assoc,
      List.append_assoc, ← hlast]
    -- only the log tells whether there were any
    dsimp only
    split
    · rfl
    · rfl
  · rw [← hlist, List.forall_mem_append, List.forall_mem_append]
    refine ⟨fun x hx => ⟨c.descendants t.id, [], (List.append_nil _).symm, ?_⟩, fun x hx => ?_,
      fun x hx => ⟨[], c.descendants t.id, rfl, (writesLast_closeGap t).requests_eq x hx⟩⟩
    · obtain rfl := List.mem_singleton.1 hx
      exact c.without_nil.symm
    · -- what is gone from the reversed list is the end of the list
      obtain ⟨front, rest, hsplit, hmet⟩ := requests_removeAll h.ids hstored hnd x hx
      refine ⟨rest.reverse, front.reverse, ?_, ?_⟩
      · rw [← List.reverse_append, ← hsplit, List.reverse_reverse]
      · rw [hmet, List.map_reverse]
        exact Catalog.without_congr (fun id => List.mem_reverse.symm) c

end Siblings

/-- What follows a removal makes no requests. -/
theorem Tasks.requests_removal (id : Uuid) (t : Task) (c : Catalog) :
    (removal id t).requests now c = (Siblings.removeStored t).requests now c := by
  unfold removal
  rw [requests_bind, requests_inContext, requests_map]
  generalize (inContext (.deletingTask t.id) (some <$> Siblings.removeStored t)).outcome now c = ran
  obtain ⟨r, c'⟩ := ran
  rcases r with e | (_ | removed) <;> exact List.append_nil _

/-! ### Deletions -/

namespace Operation

/-- The requests of a deletion: all but the last one meet the records without an end of the
pre-order, and the last one is that for the task itself. -/
theorem requests_delete (h : c.Whole) (ht : t ∈ c.tasks) (on : Occasion) :
    ∃ front, (Plan.alone ((Operation.delete t.id).plan on)).requests on.now c =
        front ++ [(.remove t.id, (c.without ((h.acyclic.preorder t.id).map (·.id))).revise
          (Task.placed on.now (Siblings.closing (c.ranked t.group) t.order)))] ∧
      ∀ x ∈ front, ∃ kept gone, h.acyclic.preorder t.id = kept ++ gone ∧
        x.2 = c.without (gone.map (·.id)) := by
  obtain ⟨front, hmade, hmet⟩ :=
    Siblings.requests_removeStored on.now h.toForest (h.parentStored t ht) ht
  refine ⟨(.task t.id, c) :: (.task t.id, c) :: front, ?_, ?_⟩
  · rw [plan, Plan.alone_map, requests_map,
      Tasks.requests_delete_stored (h.ids.task_of_mem ht), Tasks.requests_removal, hmade]
    rfl
  · have hlook : ∃ kept gone, h.acyclic.preorder t.id = kept ++ gone ∧
        c = c.without (gone.map (·.id)) :=
      ⟨h.acyclic.preorder t.id, [], (List.append_nil _).symm, c.without_nil.symm⟩
    exact List.forall_mem_cons.2 ⟨hlook, List.forall_mem_cons.2 ⟨hlook, hmet⟩⟩

/-- **Broken-off deletions.**  Let a request of a deletion of a stored task fail, from whole trees
with dense groups.  Unless the fault is overlooked, the deletion fails with it, and what is left
behind is whole: every task that is left has its parent.  What is gone is an end of the pre-order
below the task, and the task itself is there.  All groups of siblings but that of the task are
dense, and its own is what it was unless the request was the last one, the one for the task
itself; but for this, no task that is left has changed. -/
theorem delete_interrupted (h : c.Whole) (hdense : c.Dense) (ht : t ∈ c.tasks) (on : Occasion)
    {before after : List (Store.Call × Catalog)} {request : Store.Call} {c' : Catalog}
    (hmade : (Plan.alone ((Operation.delete t.id).plan on)).requests on.now c =
      before ++ (request, c') :: after)
    {fault : Fault} (hstrikes : fault.Strikes before request c') :
    ((Operation.delete t.id).Overlooks fault ∧
        (Operation.delete t.id).struck on fault c = (.ok .nothing, c)) ∨
      (∃ e, (Operation.delete t.id).struck on fault c = (.error e, c') ∧
        fault.failure.Within 1 e) ∧
      c'.projects = c.projects ∧ c'.Whole ∧ t ∈ c'.tasks ∧
      (∃ kept gone, h.acyclic.preorder t.id = kept ++ gone ∧
        c'.tasks.map (·.id) = (c.tasks.map (·.id)).filter (· ∉ gone.map (·.id)) ∧
        (c' = c.without (gone.map (·.id)) ∨ after = [] ∧ request = .remove t.id)) ∧
      (∀ g, g ≠ t.group → IsDense (c'.members g)) ∧
      (c'.members t.group = c.members t.group ∨ after = [] ∧ request = .remove t.id) := by
  refine (struck_at on (.delete t.id) c hmade hstrikes).imp_right fun ⟨_, hfails⟩ => ⟨hfails, ?_⟩
  obtain ⟨front, hrequests, hmet⟩ := requests_delete h ht on
  rw [hrequests] at hmade
  rcases List.eq_nil_or_concat after with rfl | ⟨after, last, rfl⟩
  · -- the last request
    obtain ⟨-, hlast⟩ := List.append_inj' hmade rfl
    obtain ⟨rfl, rfl⟩ := Prod.mk.inj (List.cons.inj hlast).1
    have hkeep := KeepsTree.placed on.now (Siblings.closing (c.ranked t.group) t.order)
    have hsplit := (List.nil_append (h.acyclic.preorder t.id)).symm
    refine ⟨rfl, (h.without_gone hsplit).revise hkeep, ?_, ⟨[], _, hsplit, ?_, .inr ⟨rfl, rfl⟩⟩,
      fun g hg => ?_, .inr ⟨rfl, rfl⟩⟩
    · exact List.mem_map.2 ⟨t, h.mem_without_gone ht hsplit, Siblings.placed_closing_self h.ids ht⟩
    · rw [Catalog.revise_tasks, List.map_map, ← Catalog.map_id_without]
      exact List.map_congr_left fun s _ => Task.placed_id _ _ s
    · rw [Catalog.members_revise hkeep]
      refine (hdense.without_gone h.toForest hsplit g).map fun s hmember => ?_
      obtain ⟨hleft, hgroup⟩ := Catalog.mem_members.1 hmember
      rw [Siblings.placed_closing_of_notMem (h.ids.ne_of_mem_ranked (Catalog.mem_without.1 hleft).1
        (hgroup ▸ hg))]
  · -- a request before the last one
    have hmem : (request, c') ∈ front := by
      rw [List.concat_eq_append, ← List.cons_append, ← List.append_assoc] at hmade
      rw [(List.append_inj' hmade rfl).1]
      exact List.mem_append_right _ List.mem_cons_self
    obtain ⟨kept, gone, hsplit, hc'⟩ := hmet _ hmem
    dsimp only at hc'
    subst hc'
    exact ⟨rfl, h.without_gone hsplit, h.mem_without_gone ht hsplit,
      ⟨kept, gone, hsplit, Catalog.map_id_without c _, .inl rfl⟩,
      fun g _ => hdense.without_gone h.toForest hsplit g,
      .inl (h.members_group_without_gone ht hsplit)⟩

/-- The sweeping of the household. -/
def sweep : Task := ⟨⟨2#128⟩, "Sweep", ⟨1#128⟩, none, .pending, 0, ⟨2⟩, ⟨2⟩⟩

/-- The corners are gone when the removal of the hall fails; the attic has not been touched. -/
theorem delete_interrupted_hall :
    household.Whole ∧ household.Dense ∧ sweep ∈ household.tasks ∧
      ∃ before after e,
        (Plan.alone ((Operation.delete sweep.id).plan ⟨⟨9⟩, ⟨9#128⟩⟩)).requests ⟨9⟩ household =
          before ++ (.remove ⟨4#128⟩, household.without [corners.id]) :: after ∧
        (⟨.remove, 2, .overflow⟩ : Fault).Strikes before (.remove ⟨4#128⟩)
          (household.without [corners.id]) ∧
        (Operation.delete sweep.id).struck ⟨⟨9⟩, ⟨9#128⟩⟩ ⟨.remove, 2, .overflow⟩ household =
          (.error e, household.without [corners.id]) ∧
        (household.without [corners.id]).Whole ∧
        ∀ g, g ≠ sweep.group → IsDense ((household.without [corners.id]).members g) := by
  have hmem : sweep ∈ household.tasks := by decide
  let made := (Plan.alone ((Operation.delete sweep.id).plan ⟨⟨9⟩, ⟨9#128⟩⟩)).requests ⟨9⟩ household
  have hmade : made = made.take 4 ++ (.remove ⟨4#128⟩, household.without [corners.id]) ::
      made.drop 5 := rfl
  have hstrikes : (⟨.remove, 2, .overflow⟩ : Fault).Strikes (made.take 4) (.remove ⟨4#128⟩)
      (household.without [corners.id]) := by constructor <;> decide
  have hwhole := sound_household.wellFormed.whole
  have hdense := sound_household.dense
  rcases delete_interrupted hwhole hdense hmem ⟨⟨9⟩, ⟨9#128⟩⟩ hmade hstrikes with
    ⟨⟨-, hmethod, -⟩, -⟩ | ⟨⟨e, hstruck, -⟩, -, hleft, -, -, hothers, -⟩
  · cases hmethod
  · exact ⟨hwhole, hdense, hmem, _, _, e, hmade, hstrikes, hstruck, hleft, hothers⟩

end Operation

end Agenda
