import Agenda.Proofs.Catalog.Likeness
import Agenda.Proofs.Engine.Completion

/-!
# What the engines make of catalogs that look alike

Moving a task, removing a subtree and spreading a status are three changes of a catalog.  When each
is made to twins, the catalogs look alike afterwards if they did so before, provided that what the
change depends on is not hidden: the orders for a move (`Twins.relocated`), the statuses for a
change of status (`Twins.spreads`).  A removal (`Twins.pruned`) depends on orders only to write
orders, so these may as well be hidden.

None of the three changes is seen in projects other than that of the task (`Alike.of_relocated`,
`Alike.of_pruned`, `Alike.of_spreads`), nor where what it writes is hidden
(`HidesOrder.of_relocated`, `HidesStatus.of_spreads`).
-/

namespace Agenda

/-! ### New places -/

namespace Siblings

variable {b : Task → Task} {group : List Task}

/-- The siblings behind a gap are found by their orders and named by their identifiers. -/
theorem closing_map (hid : ∀ t, (b t).id = t.id) (horder : ShowsOrder b) (gone : Int) :
    closing (group.map b) gone = closing group gone := by
  have hfilter : (group.map b).filter (gone < ·.order) = (group.filter (gone < ·.order)).map b := by
    rw [List.filter_map]
    refine congrArg _ (List.filter_congr fun t _ => ?_)
    rw [Function.comp_apply, horder]
  rw [closing, closing, hfilter, List.map_map]
  refine List.map_congr_left fun t _ => ?_
  rw [Function.comp_apply, hid, horder]

theorem moved_map (source target : Nat) :
    moved (group.map b) source target = (moved group source target).map b := by
  unfold moved
  rw [List.getElem?_map]
  cases group[source]? with
  | none => rfl
  | some t => rw [Option.map_some, List.eraseIdx_map, List.map_insertIdx]

/-- Of the tasks that get new places only the identifiers count. -/
theorem renumbering_map (hid : ∀ t, (b t).id = t.id) (source target : Nat) :
    renumbering (group.map b) source target = renumbering group source target := by
  rw [renumbering, renumbering, moved_map, ← List.map_drop, ← List.map_take, List.zipIdx_map,
    List.map_map]
  refine List.map_congr_left fun o _ => ?_
  obtain ⟨t, offset⟩ := o
  exact congrArg (·, _) (hid t)

theorem findIdx_map (hid : ∀ t, (b t).id = t.id) (u : Uuid) :
    (group.map b).findIdx (·.id = u) = group.findIdx (·.id = u) := by
  rw [List.findIdx_map]
  refine congrArg (fun p => group.findIdx p) (funext fun t => ?_)
  rw [Function.comp_apply, hid]

end Siblings

/-! ### Climbs -/

/-- Climbs reach the same tasks if they come from one pair of tasks to the next and their tests
agree. -/
theorem Ascent.ids_eq {ts ts' ps qs : List Task} {P P' : Task → Task → Prop} {t t' : Task}
    (R : Task → Task → Prop) (h : Ascent ts P t ps) (h' : Ascent ts' P' t' qs) (hR : R t t')
    (hparent : ∀ s s', R s s' → s.parent = s'.parent)
    (hstep : ∀ s s' p p', R s s' → p ∈ ts → p' ∈ ts' → s.parent = some p.id → p'.id = p.id →
      R p p' ∧ (P s p ↔ P' s' p')) : ps.map (·.id) = qs.map (·.id) := by
  -- a task without a parent is in no pair with one that has a parent
  have hroot {s s' q : Task} (hss : R s s') (hs : s.parent = none) (hs' : s'.parent = some q.id) :
      False := by
    rw [← hparent s s' hss, hs] at hs'
    cases hs'
  have hnext {s s' p p' : Task} (hss : R s s') (hp : p ∈ ts) (hp' : p' ∈ ts')
      (hs : s.parent = some p.id) (hs' : s'.parent = some p'.id) :
      p'.id = p.id ∧ R p p' ∧ (P s p ↔ P' s' p') := by
    have hid : p'.id = p.id := by
      rw [← hparent s s' hss, hs] at hs'
      exact (Option.some.inj hs').symm
    exact ⟨hid, hstep s s' p p' hss hp hp' hs hid⟩
  induction h generalizing t' qs with
  | root ht =>
    cases h' with
    | root | stop => rfl
    | step _ ht' => exact (hroot hR ht ht').elim
  | stop hp ht hnot =>
    cases h' with
    | root | stop => rfl
    | step hp' ht' hpass => exact absurd ((hnext hR hp hp' ht ht').2.2.2 hpass) hnot
  | step hp ht hpass _ ih =>
    cases h' with
    | root ht' =>
      rw [← hparent _ _ hR, ht] at ht'
      cases ht'
    | stop hp' ht' hnot => exact absurd ((hnext hR hp hp' ht ht').2.2.1 hpass) hnot
    | step hp' ht' _ hrest =>
      obtain ⟨hid, hpp, -⟩ := hnext hR hp hp' ht ht'
      rw [List.map_cons, List.map_cons, ih hrest hpp, hid]

namespace Catalog

variable {c c' d d' : Catalog} {S : Uuid → Bool} {b : Task → Task} {s t u : Task}
  {now : Instant} {status : Status}

/-! ### Twins -/

namespace Twins

variable (htu : Twins S b c d t u) (h : Alike S b c d) (hb : Sight b) (hc : c.WellFormed)
  (hd : d.WellFormed)

include htu h hb hc hd in
/-- The subtrees of twins have the same tasks. -/
theorem mem_subtree_iff {s r : Task} (hsr : Twins S b c d s r) :
    s.id ∈ c.subtree t ↔ r.id ∈ d.subtree u := by
  rw [mem_subtree hc.ids hc.acyclic htu.left s hsr.left,
    mem_subtree hd.ids hd.acyclic htu.right r hsr.right, hb.id_eq hsr.same,
    htu.below_iff h hb hc hd, hb.id_eq htu.same]

include htu h hb hc hd in
/-- **Twins are moved** to the same place. -/
theorem relocated (hshows : ShowsOrder b) (now : Instant) (target : Int) :
    Alike S b (c.relocated now t target) (d.relocated now u target) := by
  have hlength := htu.length_ranked_eq h hb hc hd
  have horder := hshows.order_eq htu.same
  have hranked := htu.map_ranked h hb hc hd hshows
  have hkeep := hb.toKeepsTree.id
  by_cases hstays : (c.ranked t.group).length ≤ 1 ∨
      Siblings.clamp (c.ranked t.group).length target = t.order
  · rw [relocated_of_stays hstays]
    rw [hlength, horder] at hstays
    rw [relocated_of_stays hstays]
    exact h
  · rw [relocated_of_moves hstays]
    rw [hlength, horder] at hstays
    rw [relocated_of_moves hstays]
    -- the list of new places names the siblings by their identifiers and nothing else
    have hplaces : Siblings.renumbering (c.ranked t.group)
        ((c.ranked t.group).findIdx (·.id = t.id))
        (Siblings.clamp (c.ranked t.group).length target).toNat =
      Siblings.renumbering (d.ranked u.group) ((d.ranked u.group).findIdx (·.id = u.id))
        (Siblings.clamp (d.ranked u.group).length target).toNat := by
      rw [← Siblings.renumbering_map hkeep, ← Siblings.findIdx_map hkeep, hranked, hlength,
        hb.id_eq htu.same, Siblings.renumbering_map hkeep, Siblings.findIdx_map hkeep]
    rw [hplaces]
    exact h.revise (.placed now _) (.placed now _) fun s r hsr => hb.placed hsr.same now _

include htu h hb hc hd in
/-- **Twins are removed** with everything below them. -/
theorem pruned (horders : ShowsOrder b ∨ HidesOrder b) (now : Instant) :
    Alike S b (c.pruned now t) (d.pruned now u) := by
  have hrest : Alike S b (c.without (c.subtree t)) (d.without (d.subtree u)) :=
    h.without hb fun s r hsr => htu.mem_subtree_iff h hb hc hd hsr
  refine hrest.revise (.placed now _) (.placed now _) fun s r hsr => ?_
  rcases horders with hshows | hhides
  · have hplaces : Siblings.closing (c.ranked t.group) t.order =
        Siblings.closing (d.ranked u.group) u.order := by
      rw [← Siblings.closing_map hb.toKeepsTree.id hshows, htu.map_ranked h hb hc hd hshows,
        hshows.order_eq htu.same, Siblings.closing_map hb.toKeepsTree.id hshows]
    rw [hplaces]
    exact hb.placed hsr.same now _
  · rw [hhides.placed, hhides.placed, hsr.same]


/-! ### Statuses -/

include htu h hb hc hd in
/-- The parents of twins are twins. -/
theorem parents {p q : Task} (hp : p ∈ c.tasks) (hq : q ∈ d.tasks) (htp : t.parent = some p.id)
    (hid : q.id = p.id) : Twins S b c d p q := by
  have hS : S p.project := by
    rw [← hc.project_of_child htu.left hp htp]
    exact htu.inside
  exact h.twins hb hd.ids hp hS hq hid

include htu h hb hd in
/-- If one of twins is the last open child of its parent, so is the other. -/
theorem lastOpen {p q : Task} (hpq : Twins S b c d p q) (hshows : ShowsStatus b)
    (hlast : c.LastOpen t p) : d.LastOpen u q := by
  refine ⟨(hshows.status_eq hpq.same).symm.trans hlast.1, fun r hr hrq hne => ?_⟩
  have hqp := hpq.symm hb
  have hS : S r.project := by
    rw [hd.project_of_child hr hpq.right hrq]
    exact hqp.inside
  obtain ⟨s, hrs⟩ := h.symm.exists_twin hr hS
  have hsp : s.parent = some p.id := by rw [← hb.parent_eq hrs.same, hrq, hb.id_eq hqp.same]
  have hother : s.id ≠ t.id := by rwa [← hb.id_eq hrs.same, hb.id_eq htu.same]
  exact (hshows.status_eq hrs.same).trans (hlast.2 s hrs.right hsp hother)

include htu h hb hc hd in
/-- From twins, climbs reach tasks with the same identifiers if their tests agree on twins. -/
theorem ascent_ids_eq {P P' : Task → Task → Prop} {ps qs : List Task}
    (hup : Ascent c.tasks P t ps) (hup' : Ascent d.tasks P' u qs)
    (hsame : ∀ s r p q, Twins S b c d s r → Twins S b c d p q → (P s p ↔ P' r q)) :
    ps.map (·.id) = qs.map (·.id) := by
  refine Ascent.ids_eq (Twins S b c d) hup hup' htu (fun s r hsr => hb.parent_eq hsr.same) ?_
  intro s r p q hsr hp hq hsp hid
  have hpq := hsr.parents h hb hc hd hp hq hsp hid
  exact ⟨hpq, hsame s r p q hsr hpq⟩

include htu h hb hc hd in
/-- **A status spreads** to twins. -/
theorem spreads (hshows : ShowsStatus b) (hc' : c.Spreads now t status c')
    (hd' : d.Spreads now u status d') : Alike S b c' d' := by
  -- the same status is given to tasks with the same identifiers
  have hgiven {ids ids' : List Uuid}
      (hids : ∀ s r, Twins S b c d s r → (s.id ∈ ids ↔ r.id ∈ ids')) :
      Alike S b (c.restate now status ids) (d.restate now status ids') := by
    have hkeep (ids : List Uuid) := (StatusOnly.restated now status ids).keepsTree
    refine h.revise (hkeep ids) (hkeep ids') fun s r hsr => ?_
    by_cases hs : s.id ∈ ids
    · rw [Task.restated_of_mem hs, Task.restated_of_mem ((hids s r hsr).1 hs)]
      exact hb.updated (hb.status hsr.same status) now
    · rw [Task.restated_of_notMem hs, Task.restated_of_notMem fun hr => hs ((hids s r hsr).2 hr)]
      exact hsr.same
  have hstatus := hshows.status_eq htu.same
  cases hc' with
  | @completed ps hup =>
    cases hd' with
    | @completed qs hup' =>
      have habove : ps.map (·.id) = qs.map (·.id) :=
        htu.ascent_ids_eq h hb hc hd hup hup' fun s r p q hsr hpq =>
          ⟨hsr.lastOpen h hb hd hpq hshows,
            (hsr.symm hb).lastOpen h.symm hb hc (hpq.symm hb) hshows⟩
      refine hgiven fun s r hsr => ?_
      rw [List.mem_append, List.mem_append, htu.mem_subtree_iff h hb hc hd hsr, habove,
        hb.id_eq hsr.same]
  | @reopened ps hdone hup =>
    cases hd' with
    | @reopened qs hdone' hup' =>
      have habove : ps.map (·.id) = qs.map (·.id) :=
        htu.ascent_ids_eq h hb hc hd hup hup' fun s r p q _ hpq => by
          rw [hshows.status_eq hpq.same]
      refine hgiven fun s r hsr => ?_
      rw [habove, hb.id_eq hsr.same, hb.id_eq htu.same]
    | pending hopen =>
      rw [hstatus, hopen] at hdone
      cases hdone
  | pending hopen =>
    cases hd' with
    | reopened hdone =>
      rw [hstatus, hdone] at hopen
      cases hopen
    | pending => exact h

end Twins

/-! ### Other projects -/

section Elsewhere

variable (hc : c.WellFormed) (ht : t ∈ c.tasks) (hS : ¬ S t.project)

include hc ht hS in
/-- A task of the projects is no sibling of a task elsewhere. -/
theorem ne_of_mem_ranked (hs : s ∈ c.tasks) (hin : S s.project) :
    ∀ r ∈ c.ranked t.group, r.id ≠ s.id := by
  refine hc.ids.ne_of_mem_ranked hs fun hgroup => ?_
  rw [hc.project_of_group (hc.parent_stored t ht) hs hgroup] at hin
  exact hS hin

include hc ht hS in
/-- Nor is it below that task. -/
theorem notMem_subtree (hs : s ∈ c.tasks) (hin : S s.project) : s.id ∉ c.subtree t := by
  intro hmem
  have hproject : s.project = t.project := by
    rcases (mem_subtree hc.ids hc.acyclic ht s hs).1 hmem with hid | hbelow
    · rw [hc.ids.eq hs ht hid]
    · exact hc.project_of_below ht hs hbelow
  rw [hproject] at hin
  exact hS hin

include hc ht hS in
/-- Nor above it. -/
theorem notMem_ascent {P : Task → Task → Prop} {ps : List Task} (h : Ascent c.tasks P t ps)
    (hs : s ∈ c.tasks) (hin : S s.project) : s.id ∉ ps.map (·.id) := by
  intro hmem
  obtain ⟨p, hp, hid⟩ := List.mem_map.1 hmem
  obtain ⟨hp, hbelow⟩ := h.above ht p hp
  obtain rfl := hc.ids.eq hp hs hid
  rw [← hc.project_of_below hp ht hbelow] at hin
  exact hS hin

include hc ht hS in
/-- A move is not seen in other projects. -/
theorem Alike.of_relocated (b : Task → Task) (now : Instant) (target : Int) :
    Alike S b c (c.relocated now t target) := by
  by_cases hstays : (c.ranked t.group).length ≤ 1 ∨
      Siblings.clamp (c.ranked t.group).length target = t.order
  · rw [relocated_of_stays hstays]
    exact .refl S b c
  · rw [relocated_of_moves hstays]
    refine .of_revise (.placed now _) fun s hs hin => congrArg b ?_
    have hmem : t ∈ c.ranked t.group := mem_ranked.2 ⟨ht, rfl⟩
    have hsource := List.findIdx_lt_length_of_exists (p := fun s => decide (s.id = t.id))
      ⟨t, hmem, decide_eq_true rfl⟩
    have hbounds := Siblings.clamp_bounds (c.ranked t.group).length (by omega) target
    exact Siblings.placed_renumbering_of_notMem hsource (by omega)
      (ne_of_mem_ranked hc ht hS hs hin)

include hc ht hS in
/-- A removal is not seen in other projects. -/
theorem Alike.of_pruned (b : Task → Task) (now : Instant) : Alike S b c (c.pruned now t) := by
  have hstay : Alike S b c (c.without (c.subtree t)) :=
    .of_without fun s hs hin => notMem_subtree hc ht hS hs hin
  refine hstay.trans (.of_revise (.placed now _) fun s hs hin => congrArg b ?_)
  exact Siblings.placed_closing_of_notMem
    (ne_of_mem_ranked hc ht hS (mem_without.1 hs).1 hin) _

include hc ht hS in
/-- A change of status is not seen in other projects. -/
theorem Alike.of_spreads (b : Task → Task) (h : c.Spreads now t status c') : Alike S b c c' := by
  have hgiven {ids : List Uuid} (hids : ∀ s ∈ c.tasks, S s.project → s.id ∉ ids) :
      Alike S b c (c.restate now status ids) :=
    .of_revise (StatusOnly.restated now status ids).keepsTree fun s hs hin => by
      rw [Task.restated_of_notMem (hids s hs hin)]
  cases h with
  | completed hup =>
    refine hgiven fun s hs hin => ?_
    rw [List.mem_append, not_or]
    exact ⟨notMem_subtree hc ht hS hs hin, notMem_ascent hc ht hS hup hs hin⟩
  | reopened _ hup =>
    refine hgiven fun s hs hin => ?_
    rw [List.mem_cons, not_or]
    refine ⟨fun hid => ?_, notMem_ascent hc ht hS hup hs hin⟩
    rw [hc.ids.eq hs ht hid] at hin
    exact hS hin
  | pending => exact .refl S b c

end Elsewhere

end Catalog

/-! ### Hidden fields -/

section Hidden

variable {b : Task → Task} {c c' : Catalog} {t : Task} {now : Instant}

/-- A move is not seen where orders are hidden. -/
theorem HidesOrder.of_relocated (hb : HidesOrder b) (S : Uuid → Bool) (c : Catalog)
    (now : Instant) (t : Task) (target : Int) : c.Alike S b (c.relocated now t target) := by
  unfold Catalog.relocated
  dsimp only
  split
  · exact .refl S b c
  · exact .of_revise (.placed now _) fun s _ _ => hb.placed now _ s

/-- A change of status is not seen where statuses are hidden. -/
theorem HidesStatus.of_spreads (hb : HidesStatus b) (S : Uuid → Bool) {status : Status}
    (h : c.Spreads now t status c') : c.Alike S b c' := by
  obtain ⟨f, hf, rfl⟩ := h.restated
  refine .of_revise hf.keepsTree fun s _ _ => ?_
  obtain ⟨status, updated, hs⟩ := hf s
  rw [hs, hb]

end Hidden

end Agenda
