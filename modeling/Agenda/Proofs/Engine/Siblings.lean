import Agenda.Proofs.Engine.Renumbering
import Agenda.Proofs.Program.Meets

/-!
# What the programs on siblings do

Each of `append`, `remove` and `move` is described by its answer and by the catalog that it leaves:
`Catalog.asLast` behind the siblings, `Catalog.pruned`, and `Catalog.relocated`.  The stores that a
run passes through are left to the caller, as a property `S` that the caller shows of the few
catalogs that a program can pass through.

Nothing is written before a program is past all of its failures, so a run that fails leaves the
catalog as it was.
-/

namespace Agenda

open Program

variable {c : Catalog} {t : Task} {now : Instant} {S : Catalog → Prop}

/-- The task as the last of its group. -/
def Catalog.asLast (c : Catalog) (t : Task) : Task :=
  { t with order := (c.members t.group).length }

namespace Siblings

/-- The group of a task is read in ascending order. -/
theorem meets_fetch (hids : c.UniqueIds) (hp : c.ParentStored t) (hS : S c)
    {Q : Except Failure (List Task) → Catalog → Prop} (hQ : Q (.ok (c.ranked t.group)) c) :
    (fetch t).Meets now S Q c := by
  have hsorted : sortOn (·.order) (c.ranked t.group) = c.ranked t.group := sortOn_sortOn _ _
  rw [← hsorted] at hQ
  unfold fetch
  cases hpar : t.parent with
  | none =>
    have hg : c.roots t.project = c.ranked t.group := by
      rw [Catalog.roots_eq_ranked, Task.group_eq_roots.2 ⟨rfl, hpar⟩]
    dsimp only
    rw [meets_bind]
    exact meets_ask_of (.roots _) (Catalog.answer_roots c now _) hS (hg ▸ hQ)
  | some u =>
    obtain ⟨s, hs, rfl⟩ := hp u hpar
    have hg : c.children s.id = c.ranked t.group := by
      rw [Catalog.children_eq_ranked, Task.group_eq_children.2 hpar]
    dsimp only
    rw [meets_bind]
    exact meets_ask_of (.children _) (hids.about_of_mem hs _) hS (hg ▸ hQ)

/-! ### Adding -/

/-- A task with a new identifier goes behind its siblings. -/
theorem meets_append (hids : c.UniqueIds) (hp : c.ParentStored t)
    (hnew : ∀ s ∈ c.tasks, s.id ≠ t.id) (hS : S c) (hS' : S (c.withTask (c.asLast t))) :
    (append t).Meets now S
      (fun r c' => r = .ok (c.asLast t) ∧ c' = c.withTask (c.asLast t)) c := by
  unfold append
  rw [meets_bind, meets_inContext, meets_bind]
  refine meets_fetch hids hp hS ?_
  have hlast : { t with order := ((c.ranked t.group).length : Int) } = c.asLast t := by
    rw [Catalog.asLast, Catalog.length_ranked]
  have hadd : c.addTask (c.asLast t) = (.ok (), c.withTask (c.asLast t)) :=
    Catalog.addTask_of_notMem hnew
  rw [between_ok, hlast, meets_bind]
  exact meets_ask_of (.addTask _) hadd hS' ⟨rfl, rfl⟩

/-- A task whose identifier is taken is refused, and nothing is stored. -/
theorem meets_append_taken (hids : c.UniqueIds) (hp : c.ParentStored t)
    (htaken : ∃ s ∈ c.tasks, s.id = t.id) (hS : S c) :
    (append t).Meets now S (fun r c' => c' = c ∧
      r = .error ((Failure.of (.taskExists t.id)).inContext (.creatingTask t.name))) c := by
  unfold append
  rw [meets_bind, meets_inContext, meets_bind]
  refine meets_fetch hids hp hS ?_
  have hadd : c.addTask { t with order := ((c.ranked t.group).length : Int) } =
      (.error (.of (.taskExists t.id)), c) :=
    Catalog.addTask_of_mem htaken
  rw [between_ok, meets_bind]
  exact meets_ask_of (.addTask _) hadd hS ⟨rfl, rfl⟩

/-! ### Removing -/

/-- The loop over the tasks that go: those gone so far and those to come are the whole list. -/
theorem meets_removeAll (hids : c.UniqueIds) {ds : List Task} (hds : ∀ d ∈ ds, d ∈ c.tasks)
    (hnd : (ds.map (·.id)).Nodup) (hS : ∀ D, S (c.without D)) :
    (ds.forM fun d => discard (ask (.remove d.id))).Meets now S
      (fun r c' => r = .ok () ∧ c' = c.without (ds.map (·.id))) c := by
  refine (Meets.forM (I := fun rest c' => ∃ gone, gone ++ rest = ds ∧
    c' = c.without (gone.map (·.id))) ⟨[], rfl, by simp⟩ ?_).mono ?_
  · rintro d rest c' ⟨gone, hsplit, rfl⟩
    have hd : d ∈ ds := hsplit ▸ List.mem_append_right _ List.mem_cons_self
    have hleft : d.id ∉ gone.map (·.id) := by
      rw [← hsplit, List.map_append, List.map_cons] at hnd
      exact fun hmem => (List.disjoint_of_nodup_append hnd) hmem List.mem_cons_self
    have hstored : d ∈ (c.without (gone.map (·.id))).tasks :=
      Catalog.mem_without.2 ⟨hds d hd, hleft⟩
    have hstep : (c.without (gone.map (·.id))).without [d.id] =
        c.without ((gone ++ [d]).map (·.id)) := by
      rw [Catalog.without_without, List.map_append, List.map_cons, List.map_nil]
    rw [meets_discard]
    refine meets_ask_of (.remove _) ((hids.without _).remove_of_mem hstored) ?_ ⟨rfl, ?_⟩
    · rw [hstep]
      exact hS _
    · exact ⟨gone ++ [d], by rw [List.append_assoc, List.singleton_append, hsplit], hstep⟩
  · rintro r c' ⟨hr, gone, rfl, rfl⟩
    rw [List.append_nil]
    exact ⟨hr, rfl⟩

/-- The gap that a stored task is going to leave is closed. -/
theorem meets_closeGap (hids : c.UniqueIds) (hp : c.ParentStored t) (ht : t ∈ c.tasks) (hS : S c)
    (hS' : S (c.revise (Task.placed now (closing (c.ranked t.group) t.order)))) :
    (closeGap t).Meets now S (fun r c' => r = .ok () ∧
      c' = c.revise (Task.placed now (closing (c.ranked t.group) t.order))) c := by
  unfold closeGap
  rw [meets_bind]
  refine meets_fetch hids hp hS ?_
  rw [between_ok]
  dsimp only
  split
  · rename_i hfew
    -- there is nothing behind the task, so nothing has to be written
    have hnil : closing (c.ranked t.group) t.order = [] := by
      rw [Bool.or_eq_true, decide_eq_true_eq, List.isEmpty_iff] at hfew
      rcases hfew with hone | hnil
      · rw [List.eq_nil_iff_forall_not_mem]
        intro o ho
        obtain ⟨s, hs, hlt, -⟩ := mem_closing.1 ho
        have hmem : t ∈ c.ranked t.group := Catalog.mem_ranked.2 ⟨ht, rfl⟩
        have hpos := List.length_pos_of_mem hmem
        obtain ⟨r, hr⟩ := List.length_eq_one_iff.1 (show (c.ranked t.group).length = 1 by omega)
        rw [hr, List.mem_singleton] at hs hmem
        rw [hs, hmem] at hlt
        omega
      · exact hnil
    rw [hnil]
    exact ⟨rfl, (Catalog.revise_eq_self fun s _ => Task.placed_nil now s).symm⟩
  · have hstored : ∀ o ∈ closing (c.ranked t.group) t.order, ∃ s ∈ c.tasks, s.id = o.1 := by
      intro o ho
      obtain ⟨s, hs, -, rfl⟩ := mem_closing.1 ho
      exact ⟨s, (Catalog.mem_ranked.1 hs).1, rfl⟩
    rw [meets_bind]
    exact meets_ask_of (.setOrders _) (Catalog.setOrders_of_stored hstored) hS' ⟨rfl, rfl⟩

/-- When the descendants of a task go, the task itself, its siblings and its parent stay. -/
theorem not_mem_descendants (hids : c.UniqueIds) (hacyclic : Acyclic c.tasks) (ht : t ∈ c.tasks)
    {s : Task} (hs : s ∈ c.tasks)
    (hcase : s.id = t.id ∨ s.group = t.group ∨ t.parent = some s.id) :
    s.id ∉ (c.descendants t.id).map (·.id) := by
  intro hin
  obtain ⟨d, hd, hid⟩ := List.mem_map.1 hin
  have hbelow : Below c.tasks t.id s.id :=
    hid ▸ ((Catalog.mem_descendants hids hacyclic ht).1 hd).2
  rcases hcase with hself | hgroup | hparent
  · exact hacyclic t.id (hself ▸ hbelow)
  · exact Catalog.not_below_of_group hids hacyclic hs ht hgroup hbelow
  · exact hacyclic t.id (hbelow.trans (.child ht hparent))

/-- When the descendants of a task are gone, the task and its parent are there. -/
theorem stays_without_descendants (hids : c.UniqueIds) (hacyclic : Acyclic c.tasks)
    (hp : c.ParentStored t) (ht : t ∈ c.tasks) :
    t ∈ (c.without ((c.descendants t.id).map (·.id))).tasks ∧
      (c.without ((c.descendants t.id).map (·.id))).ParentStored t := by
  have hstays : ∀ s ∈ c.tasks, (s.id = t.id ∨ s.group = t.group ∨ t.parent = some s.id) →
      s ∈ (c.without ((c.descendants t.id).map (·.id))).tasks := fun s hs hcase =>
    Catalog.mem_without.2 ⟨hs, not_mem_descendants hids hacyclic ht hs hcase⟩
  refine ⟨hstays t ht (.inl rfl), fun u hu => ?_⟩
  obtain ⟨s, hs, rfl⟩ := hp u hu
  exact ⟨s, hstays s hs (.inr (.inr hu)), rfl⟩

theorem ranked_without_descendants (hids : c.UniqueIds) (hacyclic : Acyclic c.tasks)
    (ht : t ∈ c.tasks) :
    (c.without ((c.descendants t.id).map (·.id))).ranked t.group = c.ranked t.group := by
  rw [Catalog.ranked, Catalog.members_without, List.filter_eq_self.2, Catalog.ranked]
  intro s hs
  obtain ⟨hs, hg⟩ := Catalog.mem_members.1 hs
  rw [decide_eq_true_eq]
  exact not_mem_descendants hids hacyclic ht hs (.inr (.inl hg))

/-- Closing the gap of a task leaves the task where it is. -/
theorem placed_closing_self (hids : c.UniqueIds) (ht : t ∈ c.tasks) :
    t.placed now (closing (c.ranked t.group) t.order) = t := by
  apply Task.placed_of_notMem
  intro hin
  obtain ⟨o, ho, hid⟩ := List.mem_map.1 hin
  obtain ⟨s, hs, hlt, rfl⟩ := mem_closing.1 ho
  rw [hids.eq (Catalog.mem_ranked.1 hs).1 ht hid] at hlt
  omega

/-- The descendants go first, the task itself goes last. -/
theorem pruned_eq (now : Instant) (t : Task) (c : Catalog) :
    ((c.without ((c.descendants t.id).map (·.id))).revise
      (Task.placed now (closing (c.ranked t.group) t.order))).without [t.id] =
      c.pruned now t := by
  rw [Catalog.revise_without (Task.placed_id now _), Catalog.without_without, Catalog.pruned,
    Catalog.subtree]
  congr 1
  exact Catalog.without_congr (fun id => by simp [or_comm]) c

/-- The last part of a removal, after the descendants are gone: the gap is closed in front of the
siblings, and the task goes. -/
theorem meets_removeLast (hids : c.UniqueIds) (hacyclic : Acyclic c.tasks)
    (hp : c.ParentStored t) (ht : t ∈ c.tasks) (hS : ∀ D, S (c.without D))
    (hS' : ∀ D, S ((c.without D).revise
      (Task.placed now (closing (c.ranked t.group) t.order)))) :
    (closeGap t >>= fun _ => (ask (.remove t.id) : Program Task)).Meets now S
      (fun r c' => r = .ok t ∧ c' = c.pruned now t)
      (c.without ((c.descendants t.id).map (·.id))) := by
  have hranked := ranked_without_descendants hids hacyclic ht
  have hlast := pruned_eq now t c
  obtain ⟨hleft, hp'⟩ := stays_without_descendants hids hacyclic hp ht
  generalize (c.descendants t.id).map (·.id) = below at hranked hlast hleft hp' ⊢
  rw [meets_bind]
  refine (meets_closeGap (hids.without _) hp' hleft (hS _) ?_).mono ?_
  · rw [hranked]
    exact hS' _
  · rintro _ _ ⟨rfl, rfl⟩
    rw [hranked, between_ok]
    have hids' := (hids.without below).revise
      (Task.placed_id now (closing (c.ranked t.group) t.order))
    have hleft' : t ∈ ((c.without below).revise
        (Task.placed now (closing (c.ranked t.group) t.order))).tasks :=
      List.mem_map.2 ⟨t, hleft, placed_closing_self hids ht⟩
    refine meets_ask_of (.remove _) (hids'.remove_of_mem hleft') ?_ ⟨rfl, hlast⟩
    rw [hlast]
    exact hS' _

/-- **Removing.**  A stored task goes with everything below it, and the answer is the task. -/
theorem meets_removeStored (hids : c.UniqueIds) (hacyclic : Acyclic c.tasks)
    (hp : c.ParentStored t) (ht : t ∈ c.tasks) (hS : ∀ D, S (c.without D))
    (hS' : ∀ D, S ((c.without D).revise
      (Task.placed now (closing (c.ranked t.group) t.order)))) :
    (removeStored t).Meets now S (fun r c' => r = .ok t ∧ c' = c.pruned now t) c := by
  have hall : ∀ d ∈ (c.descendants t.id).reverse, d ∈ c.tasks := fun d hd =>
    ((Catalog.mem_descendants hids hacyclic ht).1 (List.mem_reverse.1 hd)).1
  have hnd : ((c.descendants t.id).reverse.map (·.id)).Nodup := by
    rw [List.map_reverse, List.nodup_reverse]
    exact Catalog.nodup_ids_descendants hids hacyclic ht
  -- it makes no difference that they go from the bottom up
  have hgone : c.without ((c.descendants t.id).reverse.map (·.id)) =
      c.without ((c.descendants t.id).map (·.id)) :=
    Catalog.without_congr (fun id => by rw [List.map_reverse, List.mem_reverse]) c
  unfold removeStored
  rw [meets_bind]
  refine meets_ask_of (.descendants _) (hids.about_of_mem ht _) (c.without_nil ▸ hS []) ?_
  rw [between_ok, meets_bind]
  refine (meets_removeAll hids hall hnd hS).mono ?_
  rintro _ _ ⟨rfl, rfl⟩
  rw [hgone, between_ok]
  have hrest := meets_removeLast hids hacyclic hp ht hS hS'
  -- only the log tells whether there were any
  split
  · exact hrest
  · exact hrest

/-- A look for a task: there is one with the identifier, or none, and nothing changes. -/
theorem meets_find (hids : c.UniqueIds) {id : Uuid} {k : Log.Component} {level : Log.Level}
    {message : Text} {Q : Except Failure (Option Task) → Catalog → Prop} (hS : S c)
    (hsome : ∀ t ∈ c.tasks, t.id = id → Q (.ok (some t)) c)
    (hnone : (∀ t ∈ c.tasks, t.id ≠ id) → Q (.ok none) c) :
    (find id (log k level message)).Meets now S Q c := by
  unfold find
  rw [meets_handle, meets_map]
  rcases hids.task_cases id with ⟨t, ht, hid, hreply⟩ | ⟨hno, hreply⟩
  · have hanswer : Store.Backend.answer now (.task id) c = (.ok t, c) := by
      rw [Catalog.answer_task, hreply]
    exact meets_ask_of (.task _) hanswer hS (hsome t ht hid)
  · have hanswer : Store.Backend.answer now (.task id) c = (.error (.of (.noTask id)), c) := by
      rw [Catalog.answer_task, hreply]
    refine meets_ask_of (.task _) hanswer hS ?_
    exact hnone hno

/-! ### Moving -/

/-- **Moving.**  A stored task goes to the place that the clamped target names, whatever the orders
in its group are, and the answer is the task with that place; a task that is alone in its group
keeps the order it has. -/
theorem meets_move (hids : c.UniqueIds) (hp : c.ParentStored t) (ht : t ∈ c.tasks) (place : Int)
    (hS : S c) (hS' : S (c.relocated now t place)) :
    (move t.id place).Meets now S (fun r c' => r = .ok { t with order := c.placeFor t place } ∧
        c' = c.relocated now t place) c := by
  have hmem : t ∈ c.ranked t.group := Catalog.mem_ranked.2 ⟨ht, rfl⟩
  have hthere : ∃ s ∈ c.ranked t.group, decide (s.id = t.id) = true := ⟨t, hmem, decide_eq_true rfl⟩
  have hanswer : Store.Backend.answer now (.task t.id) c = (.ok t, c) := by
    rw [Catalog.answer_task, hids.task_of_mem ht]
  unfold move moveBy
  rw [meets_bind]
  refine meets_ask_of (.task _) hanswer hS ?_
  rw [between_ok, meets_bind, meets_inContext]
  refine meets_fetch hids hp hS ?_
  change Between now S _ _ (.ok _) c
  rw [between_ok]
  split
  · -- a task that is alone in its group needs no place
    rename_i hfew
    rw [Catalog.relocated_of_stays (.inl hfew), Catalog.placeFor, if_pos hfew]
    exact ⟨rfl, rfl⟩
  · rename_i hmany
    rw [Catalog.placeFor, if_neg hmany]
    dsimp only
    split
    · rename_i hsame
      rw [Catalog.relocated_of_stays (.inr hsame), hsame]
      exact ⟨rfl, rfl⟩
    · rename_i hmoves
      rw [Catalog.relocated_of_moves (not_or.2 ⟨hmany, hmoves⟩)] at hS' ⊢
      rw [List.findIdx?_eq_some_of_exists hthere]
      dsimp only
      have hsource := List.findIdx_lt_length_of_exists hthere
      have htarget := clamp_bounds (c.ranked t.group).length (by omega) place
      generalize (c.ranked t.group).findIdx (·.id = t.id) = source at hS' hsource ⊢
      have hstored : ∀ o ∈ renumbering (c.ranked t.group) source
          (clamp (c.ranked t.group).length place).toNat, ∃ s ∈ c.tasks, s.id = o.1 := by
        intro o ho
        obtain ⟨i, s, -, -, hget, rfl⟩ := mem_renumbering.1 ho
        have hmem := (perm_moved hsource (by omega)).mem_iff.1 (List.mem_of_getElem? hget)
        exact ⟨s, (Catalog.mem_ranked.1 hmem).1, rfl⟩
      rw [meets_bind, meets_inContext]
      exact meets_ask_of (.setOrders _) (Catalog.setOrders_of_stored hstored) hS' ⟨rfl, rfl⟩

end Siblings

end Agenda
