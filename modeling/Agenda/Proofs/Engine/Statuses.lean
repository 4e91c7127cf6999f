import Agenda.Proofs.Catalog.Sound
import Agenda.Proofs.Engine.Completion

/-!
# What becomes of statuses

Some tasks are to be completed, one after another and in any order.  Which tasks are completed in
the end?  `DoneBy ts L u` answers this by rules that know nothing of an order: `u` was completed
before, or it is a task of the list `L` or below one, or all its children are done and this is news
of one of them, which is in the list or was pending before.  A parent whose children have all been
completed for long is not done by this alone: no climb comes by.  `OpenBy ts L u` is the answer for
tasks that are to be reopened: `u` was pending before, or it is in the list, or it is the parent of
a task that was completed before and is open.

The rules agree with what one task makes of the statuses of all others (`Catalog.Spreads.given`),
and they go along with doing one thing after another (`statusBy_map`): what a second list leads to,
from where a first one has led to, is what both lists together lead to from the start.  So they tell
what becomes of all statuses when one status is given to many tasks (`Catalog.Given.trans`).

In a settled catalog, where a parent is completed just when all its children are, the two sets of
rules undo each other (`Catalog.Settled.statuses_eq`).
-/

namespace Agenda

variable {ts : List Task} {L L' : List Uuid} {s t : Task} {u : Uuid} {status : Status}

/-- The task with an identifier is completed once the tasks of a list have been completed. -/
inductive DoneBy (ts : List Task) (L : List Uuid) : Uuid → Prop
  /-- A task that was completed before. -/
  | before {s : Task} (hs : s ∈ ts) (hdone : s.status = .completed) : DoneBy ts L s.id
  /-- A task of the list, or one below it. -/
  | under {s : Task} {u : Uuid} (hs : s ∈ ts) (hu : u ∈ L) (hsu : s.id = u ∨ Below ts u s.id) :
    DoneBy ts L s.id
  /-- A parent all of whose children are done, if this is news of one of them. -/
  | parent {q p : Task} (hq : q ∈ ts) (hp : p ∈ ts) (hparent : q.parent = some p.id)
    (hnews : q.id ∈ L ∨ q.status = .pending)
    (hall : ∀ r ∈ ts, r.parent = some p.id → DoneBy ts L r.id) : DoneBy ts L p.id

/-- The task with an identifier is pending once the tasks of a list have been reopened. -/
inductive OpenBy (ts : List Task) (L : List Uuid) : Uuid → Prop
  /-- A task that was pending before. -/
  | before {s : Task} (hs : s ∈ ts) (hopen : s.status = .pending) : OpenBy ts L s.id
  /-- A task of the list. -/
  | asked {s : Task} (hs : s ∈ ts) (hin : s.id ∈ L) : OpenBy ts L s.id
  /-- The parent of a task that was completed before and is open. -/
  | parent {q p : Task} (hq : q ∈ ts) (hp : p ∈ ts) (hparent : q.parent = some p.id)
    (hdone : q.status = .completed) (hopen : OpenBy ts L q.id) : OpenBy ts L p.id

/-- The task with an identifier has a status once the tasks of a list have been given it. -/
def StatusBy (ts : List Task) (L : List Uuid) : Status → Uuid → Prop
  | .completed => DoneBy ts L
  | .pending => OpenBy ts L

theorem StatusBy.before (hs : s ∈ ts) (h : s.status = status) : StatusBy ts L status s.id := by
  cases status with
  | completed => exact DoneBy.before hs h
  | pending => exact OpenBy.before hs h

/-! ### The list -/

theorem DoneBy.mono (h : DoneBy ts L u) (hsub : L ⊆ L') : DoneBy ts L' u := by
  induction h with
  | before hs hdone => exact .before hs hdone
  | under hs hu hsu => exact .under hs (hsub hu) hsu
  | parent hq hp hparent hnews _ ih =>
    exact .parent hq hp hparent (hnews.imp_left fun hin => hsub hin) ih

theorem OpenBy.mono (h : OpenBy ts L u) (hsub : L ⊆ L') : OpenBy ts L' u := by
  induction h with
  | before hs hopen => exact .before hs hopen
  | asked hs hin => exact .asked hs (hsub hin)
  | parent hq hp hparent hdone _ ih => exact .parent hq hp hparent hdone ih

theorem StatusBy.mono (h : StatusBy ts L status u) (hsub : L ⊆ L') : StatusBy ts L' status u := by
  cases status with
  | completed => exact DoneBy.mono h hsub
  | pending => exact OpenBy.mono h hsub

/-- A list of nothing completes nothing. -/
theorem DoneBy.of_nil (h : DoneBy ts [] u) (hids : (ts.map (·.id)).Nodup) (hs : s ∈ ts)
    (hid : s.id = u) : s.status = .completed := by
  induction h generalizing s with
  | before hr hdone =>
    obtain rfl := List.inj_on_of_nodup_map hids hs hr hid
    exact hdone
  | under _ hu => cases hu
  | parent hq _ hparent hnews _ ih =>
    -- the news would be of a child that is pending, but all children are completed
    rcases hnews with hin | hpending
    · cases hin
    · have hdone := ih _ hq hparent hq rfl
      rw [hpending] at hdone
      cases hdone

/-- A list of pending tasks reopens nothing. -/
theorem OpenBy.of_pending (h : OpenBy ts L u) (hids : (ts.map (·.id)).Nodup)
    (hL : ∀ s ∈ ts, s.id ∈ L → s.status = .pending) (hs : s ∈ ts) (hid : s.id = u) :
    s.status = .pending := by
  induction h generalizing s with
  | before hr hopen =>
    obtain rfl := List.inj_on_of_nodup_map hids hs hr hid
    exact hopen
  | asked _ hin => exact hL s hs (hid ▸ hin)
  | parent hq _ _ hdone _ ih =>
    have hpending := ih hq rfl
    rw [hdone] at hpending
    cases hpending

theorem statusBy_nil (hids : (ts.map (·.id)).Nodup) (hs : s ∈ ts) :
    StatusBy ts [] status s.id ↔ s.status = status := by
  cases status with
  | completed => exact ⟨fun h => DoneBy.of_nil h hids hs rfl, fun h => .before hs h⟩
  | pending =>
    exact ⟨fun h => OpenBy.of_pending h hids (fun _ _ hin => nomatch hin) hs rfl,
      fun h => .before hs h⟩

/-! ### One list after another -/

section Twice

variable {f : Task → Task} {p q : Task}

/-- A task that does not have the status after the first list did not have it before. -/
theorem StatusBy.ne_of_ne (hstatus : ∀ s ∈ ts, (f s).status = status ↔ StatusBy ts L status s.id)
    (hs : s ∈ ts) (h : (f s).status ≠ status) : s.status ≠ status :=
  fun hbefore => h ((hstatus s hs).2 (StatusBy.before hs hbefore))

variable (hf : KeepsTree f)

include hf in
/-- What the first list leads to is there before the second one. -/
theorem StatusBy.of_first (hstatus : ∀ s ∈ ts, (f s).status = status ↔ StatusBy ts L status s.id)
    (hs : s ∈ ts) (h : StatusBy ts L status s.id) : StatusBy (ts.map f) L' status s.id := by
  have hnow : (f s).status = status := (hstatus s hs).2 h
  have hstored := StatusBy.before (L := L') (List.mem_map_of_mem (f := f) hs) hnow
  rwa [hf.id] at hstored

include hf in
/-- The rule for a parent, with the tasks as they are after the first list. -/
theorem DoneBy.parent_map (hq : q ∈ ts) (hp : p ∈ ts) (hparent : q.parent = some p.id)
    (hnews : q.id ∈ L ∨ (f q).status = .pending)
    (hall : ∀ r ∈ ts, r.parent = some p.id → DoneBy (ts.map f) L r.id) :
    DoneBy (ts.map f) L p.id := by
  rw [← hf.id] at hparent hnews ⊢
  rw [← hf.parent] at hparent
  refine .parent (List.mem_map_of_mem hq) (List.mem_map_of_mem hp) hparent hnews ?_
  intro r' hr' hrp
  obtain ⟨r, hr, rfl⟩ := List.mem_map.1 hr'
  rw [hf.parent, hf.id] at hrp
  rw [hf.id]
  exact hall r hr hrp

section Completing

variable (hstatus : ∀ s ∈ ts, (f s).status = .completed ↔ DoneBy ts L s.id)

include hf hstatus in
/-- What is done after both lists is done by both. -/
theorem DoneBy.of_map (h : DoneBy (ts.map f) L' u) : DoneBy ts (L ++ L') u := by
  induction h with
  | before hs' hdone =>
    obtain ⟨s, hs, rfl⟩ := List.mem_map.1 hs'
    rw [hf.id]
    exact ((hstatus s hs).1 hdone).mono (List.subset_append_left L L')
  | under hs' hu hsu =>
    obtain ⟨s, hs, rfl⟩ := List.mem_map.1 hs'
    rw [hf.id, below_map hf.id hf.parent] at hsu
    rw [hf.id]
    exact .under hs (List.mem_append_right L hu) hsu
  | parent hq' hp' hparent hnews _ ih =>
    obtain ⟨q, hq, rfl⟩ := List.mem_map.1 hq'
    obtain ⟨p, hp, rfl⟩ := List.mem_map.1 hp'
    rw [hf.parent, hf.id] at hparent
    rw [hf.id] at hnews ih ⊢
    refine .parent hq hp hparent ?_ fun r hr hrp => ?_
    · rcases hnews with hin | hpending
      · exact .inl (List.mem_append_right L hin)
      · -- a child that is still pending was so before
        rw [← Status.ne_completed_iff] at hpending ⊢
        exact .inr (StatusBy.ne_of_ne hstatus hq hpending)
    · have hchild := ih (f r) (List.mem_map_of_mem hr) ((hf.parent r).trans hrp)
      rwa [hf.id] at hchild

include hf hstatus in
/-- What is done by both lists is done after both. -/
theorem DoneBy.map (h : DoneBy ts (L ++ L') u) : DoneBy (ts.map f) L' u := by
  have hfirst : ∀ s ∈ ts, StatusBy ts L .completed s.id → DoneBy (ts.map f) L' s.id :=
    fun s hs hby => StatusBy.of_first hf hstatus hs hby
  induction h with
  | before hs hdone => exact hfirst _ hs (.before hs hdone)
  | under hs hu hsu =>
    rcases List.mem_append.1 hu with hu | hu
    · exact hfirst _ hs (.under hs hu hsu)
    · rw [← below_map hf.id hf.parent, ← hf.id] at hsu
      rw [← hf.id]
      exact .under (List.mem_map_of_mem hs) hu hsu
  | @parent q p hq hp hparent hnews hall ih =>
    by_cases hnow : ∀ r ∈ ts, r.parent = some p.id → DoneBy ts L r.id
    · rcases hnews with hin | hpending
      · rcases List.mem_append.1 hin with hin | hin
        · exact hfirst p hp (.parent hq hp hparent (.inl hin) hnow)
        · exact parent_map hf hq hp hparent (.inl hin) ih
      · exact hfirst p hp (.parent hq hp hparent (.inr hpending) hnow)
    · -- some child is left to the second list, and that it is done is news
      push Not at hnow
      obtain ⟨r, hr, hrp, hnot⟩ := hnow
      refine parent_map hf hr hp hrp (.inr (Status.ne_completed_iff.1 fun hdone => ?_)) ih
      exact hnot ((hstatus r hr).1 hdone)

end Completing

section Opening

variable (hstatus : ∀ s ∈ ts, (f s).status = .pending ↔ OpenBy ts L s.id)

include hf hstatus in
/-- What is open after both lists is open by both. -/
theorem OpenBy.of_map (h : OpenBy (ts.map f) L' u) : OpenBy ts (L ++ L') u := by
  induction h with
  | before hs' hopen =>
    obtain ⟨s, hs, rfl⟩ := List.mem_map.1 hs'
    rw [hf.id]
    exact ((hstatus s hs).1 hopen).mono (List.subset_append_left L L')
  | asked hs' hin =>
    obtain ⟨s, hs, rfl⟩ := List.mem_map.1 hs'
    rw [hf.id] at hin ⊢
    exact .asked hs (List.mem_append_right L hin)
  | parent hq' hp' hparent hdone _ ih =>
    obtain ⟨q, hq, rfl⟩ := List.mem_map.1 hq'
    obtain ⟨p, hp, rfl⟩ := List.mem_map.1 hp'
    rw [hf.parent, hf.id] at hparent
    rw [hf.id] at ih ⊢
    -- a child that is still completed was so before
    rw [← Status.ne_pending_iff] at hdone
    have hbefore := StatusBy.ne_of_ne hstatus hq hdone
    exact .parent hq hp hparent (Status.ne_pending_iff.1 hbefore) ih

include hf hstatus in
/-- What is open by both lists is open after both. -/
theorem OpenBy.map (h : OpenBy ts (L ++ L') u) : OpenBy (ts.map f) L' u := by
  have hfirst : ∀ s ∈ ts, StatusBy ts L .pending s.id → OpenBy (ts.map f) L' s.id :=
    fun s hs hby => StatusBy.of_first hf hstatus hs hby
  induction h with
  | before hs hopen => exact hfirst _ hs (.before hs hopen)
  | asked hs hin =>
    rcases List.mem_append.1 hin with hin | hin
    · exact hfirst _ hs (.asked hs hin)
    · rw [← hf.id] at hin ⊢
      exact .asked (List.mem_map_of_mem hs) hin
  | @parent q p hq hp hparent hdone _ ih =>
    by_cases hnow : OpenBy ts L q.id
    · exact hfirst p hp (.parent hq hp hparent hdone hnow)
    · -- the child is left to the second list, which comes by its parent
      have hstill : (f q).status = .completed :=
        Status.ne_pending_iff.1 fun hopen => hnow ((hstatus q hq).1 hopen)
      rw [← hf.id] at ih hparent ⊢
      rw [← hf.parent] at hparent
      exact .parent (List.mem_map_of_mem hq) (List.mem_map_of_mem hp) hparent hstill ih

end Opening

include hf in
/-- **One list after another** is both lists at once. -/
theorem statusBy_map (hstatus : ∀ s ∈ ts, (f s).status = status ↔ StatusBy ts L status s.id) :
    StatusBy (ts.map f) L' status u ↔ StatusBy ts (L ++ L') status u := by
  cases status with
  | completed => exact ⟨DoneBy.of_map hf hstatus, DoneBy.map hf hstatus⟩
  | pending => exact ⟨OpenBy.of_map hf hstatus, OpenBy.map hf hstatus⟩

end Twice

/-! ### One task -/

/-- A task is on the line of a climb: it is where the climb starts, or below that, or reached. -/
def OnLine (ts : List Task) (t : Task) (ps : List Task) (s : Task) : Prop :=
  s = t ∨ Below ts t.id s.id ∨ s ∈ ps

namespace Ascent

variable {P : Task → Task → Prop} {ps : List Task} {q r : Task}

/-- Of the children of one parent, at most one is on the line of a climb, if one of them is on the
climb. -/
theorem eq_of_sibling (h : Ascent ts P t ps) (hids : (ts.map (·.id)).Nodup) (hacyclic : Acyclic ts)
    (ht : t ∈ ts) (hq : q ∈ t :: ps) (hr : r ∈ ts) (hline : OnLine ts t ps r)
    (hqu : q.parent = some u) (hru : r.parent = some u) : r = q := by
  have hqs : q ∈ ts := h.stored ht q hq
  have habove : q = t ∨ Below ts q.id t.id :=
    (List.mem_cons.1 hq).imp_right fun hin => (h.above ht q hin).2
  -- two tasks on one line are the same, or one is below the other
  have hcomparable : q.id = r.id ∨ Below ts q.id r.id ∨ Below ts r.id q.id := by
    rcases hline with rfl | hrt | hrt
    · exact habove.imp (congrArg _) .inl
    · rcases habove with rfl | hqt
      · exact .inr (.inl hrt)
      · exact .inr (.inl (hqt.trans hrt))
    · have hrt := (h.above ht r hrt).2
      rcases habove with rfl | hqt
      · exact .inr (.inr hrt)
      · exact below_linear hids hqt hrt
  rcases hcomparable with hsame | hb | hb
  · exact (List.inj_on_of_nodup_map hids hqs hr hsame).symm
  · exact absurd hb (hacyclic.not_below_sibling hids hqs hqu hr hru)
  · exact absurd hb (hacyclic.not_below_sibling hids hr hru hqs hqu)

variable {c : Catalog}

/-- A climb that completes comes from a child to its parent, if the parent is pending and all its
children are on the line or were completed. -/
theorem mem_of_children (h : Ascent c.tasks c.LastOpen t ps) (hforest : c.Forest) (ht : t ∈ c.tasks)
    (hq : q ∈ t :: ps) (hs : s ∈ c.tasks) (hqs : q.parent = some s.id) (hopen : s.status = .pending)
    (hall : ∀ r ∈ c.tasks, r.parent = some s.id → OnLine c.tasks t ps r ∨ r.status = .completed) :
    s ∈ ps := by
  refine h.parent_mem hforest.ids hq hs hqs ⟨hopen, fun r hr hrs hne => ?_⟩
  rcases hall r hr hrs with hline | hdone
  · have hsame := h.eq_of_sibling hforest.ids hforest.acyclic ht hq hr hline hqs hrs
    exact absurd (congrArg Task.id hsame) hne
  · exact hdone

/-- A climb from a task that is done, and news, does all that it reaches. -/
theorem doneBy (h : Ascent c.tasks c.LastOpen t ps) (ht : t ∈ c.tasks)
    (hnews : t.id ∈ L ∨ t.status = .pending) (hdone : DoneBy c.tasks L t.id) :
    ∀ p ∈ ps, DoneBy c.tasks L p.id := by
  induction h with
  | root | stop => exact fun _ hq => nomatch hq
  | @step t p ps hp hparent hlast _ ih =>
    have hparentDone : DoneBy c.tasks L p.id := by
      refine .parent ht hp hparent hnews fun r hr hrp => ?_
      by_cases hrt : r.id = t.id
      · rw [hrt]
        exact hdone
      · exact .before hr (hlast.2 r hr hrp hrt)
    intro q hq
    rcases List.mem_cons.1 hq with rfl | hq
    · exact hparentDone
    · exact ih hp (.inr hlast.1) hparentDone q hq

/-- A climb from a task that was completed and is open opens all that it reaches. -/
theorem openBy (h : Ascent ts (fun _ p => p.status = .completed) t ps) (ht : t ∈ ts)
    (hdone : t.status = .completed) (hopen : OpenBy ts L t.id) : ∀ p ∈ ps, OpenBy ts L p.id := by
  induction h with
  | root | stop => exact fun _ hq => nomatch hq
  | @step t p ps hp hparent hpdone _ ih =>
    have hparentOpen : OpenBy ts L p.id := .parent ht hp hparent hdone hopen
    intro q hq
    rcases List.mem_cons.1 hq with rfl | hq
    · exact hparentOpen
    · exact ih hp hpdone hparentOpen q hq

end Ascent

namespace Catalog

variable {c c' : Catalog} {now : Instant} {ps : List Task}

/-- The second catalog is what becomes of the first one when the tasks of a list are given a
status. -/
def Given (c : Catalog) (status : Status) (L : List Uuid) (c' : Catalog) : Prop :=
  ∃ f, StatusOnly f ∧ c' = c.revise f ∧
    ∀ s ∈ c.tasks, (f s).status = status ↔ StatusBy c.tasks L status s.id

/-- What is done was completed before, or is on the line of the task that is completed. -/
theorem line_of_doneBy (h : c.Forest) (ht : t ∈ c.tasks) (hps : Ascent c.tasks c.LastOpen t ps)
    (hby : DoneBy c.tasks [t.id] u) (hs : s ∈ c.tasks) (hid : s.id = u) :
    OnLine c.tasks t ps s ∨ s.status = .completed := by
  induction hby generalizing s with
  | before hr hdone =>
    obtain rfl := h.ids.eq hs hr hid
    exact .inr hdone
  | under hr hin hru =>
    obtain rfl := h.ids.eq hs hr hid
    rw [List.mem_singleton.1 hin] at hru
    exact .inl (hru.imp (h.ids.eq hs ht) .inl)
  | @parent q p hq hp hparent hnews _ ih =>
    obtain rfl := h.ids.eq hs hp hid
    -- from a child on the climb, the climb goes on to the parent
    have hclimb : q ∈ t :: ps → OnLine c.tasks t ps s ∨ s.status = .completed := by
      intro hq'
      by_cases hdone : s.status = .completed
      · exact .inr hdone
      · have hreached := hps.mem_of_children h ht hq' hs hparent (Status.ne_completed_iff.1 hdone)
          fun r hr hrs => ih r hr hrs hr rfl
        exact .inl (.inr (.inr hreached))
    rcases ih q hq hparent hq rfl with (rfl | hb | hin) | hqdone
    · exact hclimb List.mem_cons_self
    · -- from below the task, its parent is the task or below it as well
      obtain ⟨q', hq', hid', v, hv, hvt⟩ := hb.parent
      rw [h.ids.eq hq' hq hid', hparent, Option.some.injEq] at hv
      rw [← hv] at hvt
      exact .inl (hvt.imp (h.ids.eq hs ht) .inl)
    · exact hclimb (List.mem_cons_of_mem t hin)
    · rcases hnews with hin | hpending
      · rw [h.ids.eq hq ht (List.mem_singleton.1 hin)] at hclimb
        exact hclimb List.mem_cons_self
      · rw [hqdone] at hpending
        cases hpending

/-- What is done when one task is completed: its line, and what was completed before. -/
theorem doneBy_iff_line (h : c.Forest) (ht : t ∈ c.tasks) (hps : Ascent c.tasks c.LastOpen t ps)
    (hs : s ∈ c.tasks) :
    DoneBy c.tasks [t.id] s.id ↔ OnLine c.tasks t ps s ∨ s.status = .completed := by
  have hself : DoneBy c.tasks [t.id] t.id := .under ht List.mem_cons_self (.inl rfl)
  refine ⟨fun hby => line_of_doneBy h ht hps hby hs rfl, ?_⟩
  rintro ((rfl | hb | hin) | hdone)
  · exact hself
  · exact .under hs List.mem_cons_self (.inr hb)
  · exact hps.doneBy ht (.inl List.mem_cons_self) hself s hin
  · exact .before hs hdone

/-- What is open was pending before, or is on the climb of the task that is reopened. -/
theorem climb_of_openBy (h : c.Forest) (ht : t ∈ c.tasks)
    (hps : Ascent c.tasks (fun _ p => p.status = .completed) t ps)
    (hby : OpenBy c.tasks [t.id] u) (hs : s ∈ c.tasks) (hid : s.id = u) :
    s ∈ t :: ps ∨ s.status = .pending := by
  induction hby generalizing s with
  | before hr hopen =>
    obtain rfl := h.ids.eq hs hr hid
    exact .inr hopen
  | asked hr hin =>
    obtain rfl := h.ids.eq hs hr hid
    rw [h.ids.eq hs ht (List.mem_singleton.1 hin)]
    exact .inl List.mem_cons_self
  | @parent q p hq hp hparent hqdone _ ih =>
    obtain rfl := h.ids.eq hs hp hid
    by_cases hdone : s.status = .completed
    · rcases ih hq rfl with hq' | hpending
      · exact .inl (List.mem_cons_of_mem t (hps.parent_mem h.ids hq' hs hparent hdone))
      · rw [hqdone] at hpending
        cases hpending
    · exact .inr (Status.ne_completed_iff.1 hdone)

/-- What is open when a completed task is reopened: its climb, and what was pending before. -/
theorem openBy_iff_climb (h : c.Forest) (ht : t ∈ c.tasks) (hdone : t.status = .completed)
    (hps : Ascent c.tasks (fun _ p => p.status = .completed) t ps) (hs : s ∈ c.tasks) :
    OpenBy c.tasks [t.id] s.id ↔ s ∈ t :: ps ∨ s.status = .pending := by
  have hself : OpenBy c.tasks [t.id] t.id := .asked ht List.mem_cons_self
  refine ⟨fun hby => climb_of_openBy h ht hps hby hs rfl, ?_⟩
  rintro (hin | hopen)
  · rcases List.mem_cons.1 hin with rfl | hin
    · exact hself
    · exact hps.openBy ht hdone hself s hin
  · exact .before hs hopen

/-- **One task.**  What a task makes of all statuses when it is given one is what the rules say. -/
theorem Spreads.given (h : c.Forest) (ht : t ∈ c.tasks) (hspreads : c.Spreads now t status c') :
    c.Given status [t.id] c' := by
  cases hspreads with
  | @completed ps hps =>
    refine ⟨_, .restated now .completed (c.subtree t ++ ps.map (·.id)), rfl, fun s hs => ?_⟩
    have hstored : ∀ p ∈ ps, p ∈ c.tasks := fun p hp => (hps.above ht p hp).1
    rw [Task.restated_status_iff, mem_subtree_append h ht hstored hs]
    exact (doneBy_iff_line h ht hps hs).symm
  | @reopened ps hdone hps =>
    refine ⟨_, .restated now .pending (t.id :: ps.map (·.id)), rfl, fun s hs => ?_⟩
    rw [Task.restated_status_iff, hps.id_mem_iff h.ids ht hs]
    exact (openBy_iff_climb h ht hdone hps hs).symm
  | pending hopen =>
    -- no task is written, and the one that is asked for is pending
    refine ⟨_, .refl, (revise_eq_self fun _ _ => rfl).symm, fun s hs => ?_⟩
    refine ⟨fun hpending => .before hs hpending, fun hby => ?_⟩
    refine OpenBy.of_pending hby h.ids (fun r hr hin => ?_) hs rfl
    rw [h.ids.eq hr ht (List.mem_singleton.1 hin)]
    exact hopen

/-! ### Many tasks -/

/-- The tasks with their statuses. -/
def statuses (c : Catalog) : List (Uuid × Status) := c.tasks.map fun t => (t.id, t.status)

namespace Given

theorem refl (hids : c.UniqueIds) (status : Status) : c.Given status [] c :=
  ⟨_, .refl, (revise_eq_self fun _ _ => rfl).symm, fun _ hs => (statusBy_nil hids hs).symm⟩

theorem restated (h : c.Given status L c') : Restated c c' := by
  obtain ⟨f, hf, hc', -⟩ := h
  exact ⟨f, hf, hc'⟩

/-- **One list after another** is both lists at once. -/
theorem trans {c'' : Catalog} (h : c.Given status L c') (h' : c'.Given status L' c'') :
    c.Given status (L ++ L') c'' := by
  obtain ⟨f, hf, rfl, hstatus⟩ := h
  obtain ⟨g, hg, rfl, hstatus'⟩ := h'
  refine ⟨g ∘ f, hf.comp hg, ?_, fun s hs => ?_⟩
  · rw [revise, revise_tasks, List.map_map]
    rfl
  · have hsecond := hstatus' (f s) (List.mem_map_of_mem hs)
    rw [revise_tasks, statusBy_map hf.keepsTree hstatus, hf.keepsTree.id] at hsecond
    exact hsecond

/-- The status that each task has then. -/
theorem status_iff (h : c.Given status L c') (hs : s ∈ c'.tasks) :
    s.status = status ↔ StatusBy c.tasks L status s.id := by
  obtain ⟨f, hf, rfl, hstatus⟩ := h
  obtain ⟨r, hr, rfl⟩ := List.mem_map.1 hs
  rw [hf.keepsTree.id]
  exact hstatus r hr

/-- **Order does not matter.**  Two lists of the same tasks lead to the same statuses. -/
theorem statuses_eq {c₁ c₂ : Catalog} (h : c.Given status L c₁) (h' : c.Given status L' c₂)
    (hsame : ∀ u, u ∈ L ↔ u ∈ L') : c₁.statuses = c₂.statuses := by
  obtain ⟨f, hf, rfl, hstatus⟩ := h
  obtain ⟨g, hg, rfl, hstatus'⟩ := h'
  rw [statuses, statuses, revise_tasks, revise_tasks, List.map_map, List.map_map]
  refine List.map_congr_left fun s hs => ?_
  have hiff : (f s).status = status ↔ (g s).status = status := by
    rw [hstatus s hs, hstatus' s hs]
    exact ⟨fun hby => hby.mono fun u hu => (hsame u).1 hu,
      fun hby => hby.mono fun u hu => (hsame u).2 hu⟩
  rw [Function.comp_apply, Function.comp_apply, hf.keepsTree.id, hg.keepsTree.id,
    Status.eq_of_iff hiff]

end Given

/-! ### There and back -/

/-- Each task that has children is completed if and only if all of them are. -/
def Settled (c : Catalog) : Prop :=
  ∀ p ∈ c.tasks, (∃ s ∈ c.tasks, s.parent = some p.id) →
    (p.status = .completed ↔ ∀ s ∈ c.tasks, s.parent = some p.id → s.status = .completed)

namespace Settled

/-- The children of completed tasks are completed. -/
theorem children (h : c.Settled) : ∀ p ∈ c.tasks, p.status = .completed → ∀ s ∈ c.tasks,
    s.parent = some p.id → s.status = .completed :=
  fun p hp hdone s hs hsp => (h p hp ⟨s, hs, hsp⟩).1 hdone s hs hsp

section Reopened

variable {f : Task → Task} (hsettled : c.Settled) (h : c.Forest) (ht : t ∈ c.tasks)
  (hf : StatusOnly f)
  (hopen : ∀ s ∈ c.tasks, (f s).status = .pending ↔ StatusBy c.tasks [t.id] .pending s.id)

include hsettled h ht hf hopen in
/-- After a completed task has been reopened, completing it does only what was done at first. -/
theorem completed_of_doneBy (hdone : t.status = .completed)
    (hby : DoneBy (c.revise f).tasks [t.id] u) (hs : s ∈ c.tasks) (hid : s.id = u) :
    s.status = .completed := by
  have hkeeps := hf.keepsTree
  induction hby generalizing s with
  | before hr' hrdone =>
    obtain ⟨r, hr, rfl⟩ := List.mem_map.1 hr'
    rw [hkeeps.id] at hid
    obtain rfl := h.ids.eq hs hr hid
    -- a task that is completed now was so at first
    rw [← Status.ne_pending_iff] at hrdone ⊢
    exact StatusBy.ne_of_ne hopen hs hrdone
  | under hr' hu hru =>
    obtain ⟨r, hr, rfl⟩ := List.mem_map.1 hr'
    rw [hkeeps.id] at hid
    obtain rfl := h.ids.eq hs hr hid
    rw [List.mem_singleton.1 hu, hkeeps.id, revise_tasks, below_map hkeeps.id hkeeps.parent] at hru
    rcases hru with hst | hb
    · rw [h.ids.eq hs ht hst]
      exact hdone
    · exact hb.inherits h.ids hsettled.children ht hdone hs
  | parent hq' hp' hqp _ _ ih =>
    obtain ⟨q, hq, rfl⟩ := List.mem_map.1 hq'
    obtain ⟨p, hp, rfl⟩ := List.mem_map.1 hp'
    rw [hkeeps.id] at hid
    obtain rfl := h.ids.eq hs hp hid
    rw [hkeeps.parent, hkeeps.id] at hqp
    refine (hsettled s hs ⟨q, hq, hqp⟩).2 fun r hr hrs => ?_
    have hrs' : (f r).parent = some (f s).id := by rw [hkeeps.parent, hkeeps.id, hrs]
    exact ih (f r) (List.mem_map_of_mem hr) hrs' hr (hkeeps.id r).symm

include hsettled h hf hopen in
/-- After a task has been reopened, completing it does all that was done at first. -/
theorem doneBy_of_completed (hs : s ∈ c.tasks) (hdone : s.status = .completed) :
    DoneBy (c.revise f).tasks [t.id] s.id := by
  have hkeeps := hf.keepsTree
  -- from the leaves up: what is done at the children is known
  generalize hu : s.id = u
  induction u using h.acyclic.wellFounded_swap.induction generalizing s with
  | _ u ih =>
    subst hu
    have hmem : f s ∈ (c.revise f).tasks := List.mem_map_of_mem hs
    by_cases hnow : (f s).status = .completed
    · rw [← hkeeps.id s]
      exact .before hmem hnow
    have hby : OpenBy c.tasks [t.id] s.id := (hopen s hs).1 (Status.ne_completed_iff.1 hnow)
    generalize hu : s.id = u at hby
    cases hby with
    | before hr hpending =>
      obtain rfl := h.ids.eq hs hr hu
      rw [hdone] at hpending
      cases hpending
    | asked _ hin =>
      rw [← hu, ← hkeeps.id s] at hin ⊢
      exact .under hmem hin (.inl rfl)
    | @parent q p hq hp hqp _ hqopen =>
      obtain rfl := h.ids.eq hs hp hu
      -- the task was reopened from a child, and that the child is done is news
      have hnews : (f q).status = .pending := (hopen q hq).2 hqopen
      refine DoneBy.parent_map hkeeps hq hs hqp (.inr hnews) fun r hr hrs => ?_
      exact ih r.id (.of_mem hr hrs) hr (hsettled.children s hs hdone r hr hrs) rfl

end Reopened

/-- **There and back.**  In a settled catalog, a completed task that is reopened and then completed
again leaves all statuses as they were. -/
theorem statuses_eq (hsettled : c.Settled) (h : c.Forest) (ht : t ∈ c.tasks)
    (hdone : t.status = .completed) {c₁ c₂ : Catalog} (hopened : c.Given .pending [t.id] c₁)
    (hagain : c₁.Given .completed [t.id] c₂) : c₂.statuses = c.statuses := by
  obtain ⟨f, hf, rfl, hopen⟩ := hopened
  obtain ⟨g, hg, rfl, hclosed⟩ := hagain
  rw [statuses, statuses, revise_tasks, revise_tasks, List.map_map, List.map_map]
  refine List.map_congr_left fun s hs => ?_
  have hby := hclosed (f s) (List.mem_map_of_mem hs)
  rw [hf.keepsTree.id] at hby
  have hiff : (g (f s)).status = .completed ↔ s.status = .completed :=
    hby.trans ⟨fun hby => hsettled.completed_of_doneBy h ht hf hopen hdone hby hs rfl,
      fun hsdone => hsettled.doneBy_of_completed h hf hopen hs hsdone⟩
  rw [Function.comp_apply, Function.comp_apply, hg.keepsTree.id, hf.keepsTree.id,
    Status.eq_of_iff hiff]

end Settled

end Catalog

end Agenda
