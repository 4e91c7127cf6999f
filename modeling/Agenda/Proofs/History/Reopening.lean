import Agenda.Proofs.History.Closed
import Agenda.Proofs.History.Reach
import Agenda.Proofs.Operation.Cases
import Mathlib.Data.List.TakeWhile

/-!
# How far reopening reaches

Reopening a completed task reopens the completed tasks directly above it, as far as they are
completed without a break, and leaves everything else as it is (`Completion.reopen_exact`).  A
pending task is not touched at all.

Does it reach all completed tasks above?  It does if and only if none of them is above a pending one
(`Ascent.reaches_completed_iff`).  On every medium and after every history this decides whether
everything above a task is pending once the task has been reopened (`Medium.lineage_reopened_iff`);
and if no operation of the history has created a task below a completed one, it always is.
Otherwise there can be a pending task between two completed ones (`fence`), and the climb ends
there.
-/

namespace Agenda

open Program

variable {c c' : Catalog} {s t : Task} {now : Instant} {ts ps above : List Task}

/-! ### Giving a status -/

namespace Catalog

theorem Restated.fits {limit : Option Nat} (h : Restated c c') (hfits : c.Fits limit) :
    c'.Fits limit := by
  obtain ⟨f, hf, rfl⟩ := h
  intro B hB t' ht'
  obtain ⟨t, ht, rfl⟩ := List.mem_map.1 ht'
  rw [hf.order, hf.name]
  exact hfits B hB t ht

/-- A stored task has the status after it has been given to some if it is one of them or had it. -/
theorem exists_restate_iff (hids : c.UniqueIds) (hs : s ∈ c.tasks) (now : Instant) (status : Status)
    (ids : List Uuid) :
    (∃ s' ∈ (c.restate now status ids).tasks, s'.id = s.id ∧ s'.status = status) ↔
      s.id ∈ ids ∨ s.status = status := by
  have hkeeps := (StatusOnly.restated now status ids).keepsTree
  rw [← s.restated_status_iff now status ids]
  constructor
  · rintro ⟨_, hr', hid, hstatus⟩
    obtain ⟨r, hr, rfl⟩ := List.mem_map.1 hr'
    rw [hkeeps.id] at hid
    rwa [← hids.eq hr hs hid]
  · exact fun hstatus => ⟨_, List.mem_map_of_mem hs, hkeeps.id s, hstatus⟩

end Catalog

namespace Completion

/-- Giving a status to a stored task does not fail, and a session follows the catalog. -/
theorem exists_outcome_set (h : c.Whole) (ht : t ∈ c.tasks) (now : Instant) (status : Status) :
    ∃ c', c.Spreads now t status c' ∧
      (set t.id status).outcome now c = (.ok { t with status := status }, c') ∧
      ∀ opened : Database, c.Valid → c.Fits columnLimit →
        (set t.id status).outcome now (Session.holding opened c) =
          (.ok { t with status := status }, Session.holding opened c') := by
  have hmeets : (set t.id status).Meets now (c.KeepsTidy True 9223372036854775808)
      (fun r c' => r = .ok { t with status := status } ∧ c.Spreads now t status c') c :=
    meets_set h.ids h.acyclic h.parentStored ht (fun c' hc' => .restated hc') status
  obtain ⟨hresult, hspreads⟩ := hmeets.run
  have hmemory : (set t.id status).outcome now c = (.ok { t with status := status }, _) :=
    Prod.ext hresult rfl
  refine ⟨_, hspreads, hmemory, fun opened hvalid hfits => ?_⟩
  rw [outcome_holding opened (steady_set (k := 0) t.id status) h.toForest hvalid hfits hmeets]
  exact congrArg (fun ran => (ran.1, Session.holding opened ran.2)) hmemory

/-! ### Reopening -/

/-- **Reopening, exactly.**  Reopening a stored task does not fail.  The tasks that become pending
are the task and the tasks directly above it, as far as they are completed without a break; they are
none, and nothing is written, if the task is pending.  Nothing below the task changes. -/
theorem reopen_exact (h : c.Whole) (ht : t ∈ c.tasks) (now : Instant) :
    ∃ above, Lineage c.tasks t above ∧
      let reached := (t :: above).takeWhile (·.isCompleted)
      let c' := c.revise fun s =>
        if s ∈ reached then { s with status := .pending, updated := now } else s
      (reopen t.id).outcome now c = (.ok { t with status := .pending }, c') ∧
        (t.status = .pending → c' = c) ∧
        (∀ s ∈ c.tasks, (s.status = .completed ∧
          ∃ s' ∈ c'.tasks, s'.id = s.id ∧ s'.status = .pending) ↔ s ∈ reached) ∧
        (∀ s ∈ c.tasks, Below c.tasks t.id s.id → s ∈ c'.tasks) ∧
        ∀ opened : Database, c.Valid → c.Fits columnLimit →
          (reopen t.id).outcome now (Session.holding opened c) =
            (.ok { t with status := .pending }, Session.holding opened c') := by
  obtain ⟨c', hspreads, hmemory, hsession⟩ := exists_outcome_set h ht now .pending
  obtain ⟨above, habove⟩ := h.acyclic.exists_ascent (fun _ _ => True) h.parentStored ht
  refine ⟨above, habove, ?_⟩
  dsimp only
  generalize hreached : (t :: above).takeWhile (·.isCompleted) = reached
  have hcompleted : ∀ s ∈ reached, s.status = .completed := by
    intro s hs
    rw [← hreached] at hs
    exact Task.isCompleted_iff.1 (List.mem_takeWhile_imp hs)
  -- the tasks reached are those that are written to
  have hwritten : ∃ ids, c' = c.restate now .pending ids ∧
      (∀ s ∈ c.tasks, s.id ∈ ids ↔ s ∈ reached) ∧ (t.status = .pending → c' = c) := by
    cases hspreads with
    | @reopened ps hdone hps =>
      have hrun := hps.eq_takeWhile (fun _ _ => Task.isCompleted_iff.symm) h.ids habove
      rw [List.takeWhile_cons_of_pos (Task.isCompleted_iff.2 hdone), ← hrun] at hreached
      refine ⟨_, rfl, fun s hs => hreached ▸ hps.id_mem_iff h.ids ht hs, fun hopen => ?_⟩
      rw [hdone] at hopen
      cases hopen
    | pending hopen =>
      have hnone : reached = [] := by
        rw [← hreached, List.takeWhile_cons_of_neg]
        rw [Task.isCompleted_iff, hopen]
        exact fun h => nomatch h
      rw [hnone]
      exact ⟨[], (c.restate_nil now .pending).symm,
        fun _ _ => iff_of_false List.not_mem_nil List.not_mem_nil, fun _ => rfl⟩
  obtain ⟨ids, hids, hmem, hsame⟩ := hwritten
  have hrevised : c' = c.revise fun s =>
      if s ∈ reached then { s with status := .pending, updated := now } else s :=
    hids.trans (Catalog.revise_congr fun s hs => if_congr (hmem s hs) rfl rfl)
  rw [← hrevised]
  refine ⟨hmemory, hsame, fun s hs => ?_, fun s hs hbelow => ?_, hsession⟩
  · rw [hids, Catalog.exists_restate_iff h.ids hs, hmem s hs]
    constructor
    · rintro ⟨hdone, hin | hopen⟩
      · exact hin
      · rw [hdone] at hopen
        cases hopen
    · exact fun hin => ⟨hcompleted s hin, .inl hin⟩
  · -- everything that is reached is the task or above it
    rw [hids]
    refine Catalog.mem_restate_of_notMem hs fun hin => ?_
    rw [hmem s hs, ← hreached] at hin
    rcases List.mem_cons.1 ((List.takeWhile_sublist _).mem hin) with rfl | hup
    · exact h.acyclic s.id hbelow
    · exact h.acyclic s.id ((habove.above ht s hup).2.trans hbelow)

end Completion

/-! ### All that is above -/

/-- The climb that reopens reaches all completed tasks above its start if and only if none of them
is above a pending one. -/
theorem Ascent.reaches_completed_iff (h : Ascent ts (fun _ p => p.status = .completed) t ps)
    (hids : (ts.map (·.id)).Nodup) (hacyclic : Acyclic ts) (habove : Lineage ts t above) :
    (∀ p ∈ above, p.status = .completed → p ∈ ps) ↔
      above.Pairwise fun p q => p.status = .pending → q.status = .pending := by
  induction h generalizing above with
  | root hroot =>
    rw [habove.lineage_of_root hroot]
    exact iff_of_true (fun _ hq => nomatch hq) List.Pairwise.nil
  | @stop t p hp hparent hfails =>
    obtain ⟨rest, rfl, -⟩ := habove.lineage_of_parent hids hp hparent
    have hopen : p.status = .pending := Status.ne_completed_iff.1 hfails
    constructor
    · intro hall
      have hpending : ∀ q ∈ p :: rest, q.status = .pending := fun q hq =>
        Status.ne_completed_iff.1 fun hdone => nomatch hall q hq hdone
      exact List.pairwise_of_forall_mem_list fun _ _ q hq _ => hpending q hq
    · intro hpairs q hq hdone
      rcases List.mem_cons.1 hq with rfl | hq
      · exact absurd hdone hfails
      · have hpending := (List.pairwise_cons.1 hpairs).1 q hq hopen
        rw [hdone] at hpending
        cases hpending
  | @step t p ps hp hparent hdone hps ih =>
    obtain ⟨rest, rfl, hrest⟩ := habove.lineage_of_parent hids hp hparent
    have hfresh : p ∉ rest := (List.nodup_cons.1 (hrest.nodup hacyclic hp)).1
    rw [List.pairwise_cons, ← ih hrest]
    constructor
    · intro hall
      refine ⟨fun q _ hopen => ?_, fun q hq hqdone => ?_⟩
      · rw [hdone] at hopen
        cases hopen
      · rcases List.mem_cons.1 (hall q (List.mem_cons_of_mem p hq) hqdone) with rfl | hin
        · exact absurd hq hfresh
        · exact hin
    · rintro ⟨-, hall⟩ q hq hqdone
      rcases List.mem_cons.1 hq with rfl | hq
      · exact List.mem_cons_self
      · exact List.mem_cons_of_mem p (hall q hq hqdone)

namespace Catalog

/-- After a completed task has been reopened, it and everything above it is pending if and only if
no completed task above it is above a pending one. -/
theorem Spreads.lineage_pending_iff (h : c.Forest) (ht : t ∈ c.tasks)
    (hdone : t.status = .completed) (habove : Lineage c.tasks t above)
    (hspreads : c.Spreads now t .pending c') :
    (∀ p ∈ t :: above, ∃ p' ∈ c'.tasks, p'.id = p.id ∧ p'.status = .pending) ↔
      above.Pairwise fun p q => p.status = .pending → q.status = .pending := by
  cases hspreads with
  | pending hopen =>
    rw [hdone] at hopen
    cases hopen
  | @reopened ps _ hps =>
    have hself := (exists_restate_iff h.ids ht now .pending (t.id :: ps.map (·.id))).2
      (.inl List.mem_cons_self)
    rw [← hps.reaches_completed_iff h.ids h.acyclic habove, List.forall_mem_cons,
      and_iff_right hself]
    refine forall₂_congr fun p hp => ?_
    obtain ⟨hstored, hbelow⟩ := habove.above ht p hp
    have hne : p ≠ t := by
      rintro rfl
      exact h.acyclic p.id hbelow
    rw [exists_restate_iff h.ids hstored, hps.id_mem_iff h.ids ht hstored, List.mem_cons,
      or_iff_right hne, ← Status.ne_completed_iff]
    exact ⟨fun hor hpdone => hor.resolve_right fun hopen => hopen hpdone,
      fun hall => or_iff_not_imp_right.2 fun hpdone => hall (not_not.1 hpdone)⟩

/-- If everything below completed tasks is completed, no completed task is above a pending one. -/
theorem CompletedBelow.pairwise (h : c.CompletedBelow) (ht : t ∈ c.tasks)
    (habove : Lineage c.tasks t above) :
    above.Pairwise fun p q => p.status = .pending → q.status = .pending := by
  have hstored : ∀ p ∈ above, p ∈ c.tasks := fun p hp => (habove.above ht p hp).1
  refine (List.pairwise_cons.1 (habove.pairwise_below ht)).2.imp_of_mem
    fun {p q} hp hq hbelow hopen => ?_
  refine Status.ne_completed_iff.1 fun hdone => ?_
  have hpdone := h q (hstored q hq) hdone p (hstored p hp) hbelow
  rw [hopen] at hpdone
  cases hpdone

end Catalog

namespace Medium

open History

/-- After a history that has spared the completed tasks, everything below them is completed. -/
theorem completedBelow_after (m : Medium) {h : History}
    (hspares : SparesCompleted m.step m.records m.start h) (hc : m.records (m.after h) = .ok c) :
    c.CompletedBelow := by
  have htrace := (completedBelow_onMedium m h).2 hspares
  -- the state at the end is the last one of the trace, or the first of all
  rcases List.eq_nil_or_concat h with rfl | ⟨before, ⟨on, op⟩, rfl⟩
  · have hstart : m.records m.start = .ok .empty := by
      rw [m.start_eq]
      exact m.records_holding .empty (Catalog.fits_empty _)
    obtain rfl : Catalog.empty = c := Except.ok.inj (hstart.symm.trans hc)
    exact fun p hp => nomatch hp
  · rw [List.concat_eq_append] at htrace hc
    rw [m.after_concat] at hc
    have hlast : m.step on op (m.after before) ∈ trace m.step m.start (before ++ [(on, op)]) := by
      rw [trace_append]
      exact List.mem_append_right _ List.mem_cons_self
    obtain ⟨c₁, hc₁, hbelow⟩ := htrace _ hlast
    obtain rfl : c₁ = c := Except.ok.inj (hc₁.symm.trans hc)
    exact hbelow

/-- **Reopening after a history.**  On every medium, reopening a stored completed task succeeds.
Then the task and everything above it is pending if and only if no completed task above it was above
a pending one; and that is so if the history has created no task below a completed one. -/
theorem lineage_reopened_iff (m : Medium) (h : History) (on : Occasion) :
    ∃ c : Catalog, m.records (m.after h) = .ok c ∧ ∀ t ∈ c.tasks, t.status = .completed →
      ∃ above c', Lineage c.tasks t above ∧
        (m.step on (.reopen t.id) (m.after h)).1 = .ok (.ofTask { t with status := .pending }) ∧
        m.records (m.after (h ++ [(on, .reopen t.id)])) = .ok c' ∧
        ((∀ p ∈ t :: above, ∃ p' ∈ c'.tasks, p'.id = p.id ∧ p'.status = .pending) ↔
          above.Pairwise fun p q => p.status = .pending → q.status = .pending) ∧
        (SparesCompleted m.step m.records m.start h →
          ∀ p ∈ t :: above, ∃ p' ∈ c'.tasks, p'.id = p.id ∧ p'.status = .pending) := by
  rcases m.after_cases h with ⟨c, hc, hfits, hafter⟩ | ⟨hspent, c, hafter⟩
  · have hrecords : m.records (m.after h) = .ok c := by
      rw [hafter]
      exact m.records_holding hc hfits
    refine ⟨c, hrecords, fun t ht hdone => ?_⟩
    have hforest := hc.wellFormed.forest
    obtain ⟨above, habove⟩ :=
      hforest.acyclic.exists_ascent (fun _ _ => True) hc.wellFormed.parentStored ht
    -- in memory, the task is reopened
    have hstored : (Operation.reopen t.id).refusal? on c = none := Catalog.noTask?_of_mem ht
    obtain ⟨r, hr, hid, hresult, hspreads⟩ :=
      (effect_inMemory hc.wellFormed on (.reopen t.id)).of_status rfl hstored
    obtain rfl := hforest.ids.eq hr ht hid
    have hfits' := hspreads.restated.fits hfits
    have hstep := step_of_fits hc hfits (m.seeks_of_sought rfl) hfits'
    have hiff := hspreads.lineage_pending_iff hforest ht hdone habove
    refine ⟨above, _, habove, ?_, ?_, hiff, fun hspares => hiff.2 ?_⟩
    · rw [hafter, hstep, hresult]
    · rw [m.after_concat, hafter, hstep]
      exact m.records_holding (hspreads.restated.sound hc) hfits'
    · exact (m.completedBelow_after hspares hrecords).pairwise ht habove
  · rw [hafter] at hspent ⊢
    exact ⟨.empty, records_undone hspent, fun t ht => nomatch ht⟩

end Medium

/-! ### A fence -/

/-- A fence is completed, and gets a gate afterwards.  A screw of the gate is completed, and with it
the hinge; the gate is open still. -/
def fence : History :=
  [(⟨⟨1⟩, ⟨1#128⟩⟩, .createProject "Garden"), (⟨⟨2⟩, ⟨2#128⟩⟩, .createTask "Fence" ⟨1#128⟩ none),
    (⟨⟨3⟩, ⟨3#128⟩⟩, .complete ⟨2#128⟩),
    (⟨⟨4⟩, ⟨4#128⟩⟩, .createTask "Gate" ⟨1#128⟩ (some ⟨2#128⟩)),
    (⟨⟨5⟩, ⟨5#128⟩⟩, .createTask "Hinge" ⟨1#128⟩ (some ⟨4#128⟩)),
    (⟨⟨6⟩, ⟨6#128⟩⟩, .createTask "Latch" ⟨1#128⟩ (some ⟨4#128⟩)),
    (⟨⟨7⟩, ⟨7#128⟩⟩, .createTask "Screw" ⟨1#128⟩ (some ⟨5#128⟩)),
    (⟨⟨8⟩, ⟨8#128⟩⟩, .complete ⟨7#128⟩)]

/-- The screw as it is then. -/
def screw : Task := ⟨⟨7#128⟩, "Screw", ⟨1#128⟩, some ⟨5#128⟩, .completed, 0, ⟨7⟩, ⟨8⟩⟩

/-- With the screw, the hinge is reopened, and nothing else is. -/
theorem Completion.reopen_exact_screw :
    (History.after inMemory .empty fence).Whole ∧
      screw ∈ (History.after inMemory .empty fence).tasks ∧
      ∃ above, Lineage (History.after inMemory .empty fence).tasks screw above ∧
        (reopen screw.id).outcome ⟨9⟩ (History.after inMemory .empty fence) =
          (.ok { screw with status := .pending },
            (History.after inMemory .empty fence).revise fun s =>
              if s ∈ (screw :: above).takeWhile (·.isCompleted)
              then { s with status := .pending, updated := ⟨9⟩ } else s) ∧
        ((reopen screw.id).outcome ⟨9⟩ (History.after inMemory .empty fence)).2.tasks.map
            (fun t => (t.name, t.status)) =
          ([("Fence", .completed), ("Gate", .pending), ("Hinge", .pending), ("Latch", .pending),
            ("Screw", .pending)] : List (Text × Status)) := by
  have hwhole := (History.sound_after fence).wellFormed.whole
  have hmem : screw ∈ (History.after inMemory .empty fence).tasks := by decide
  obtain ⟨above, habove, hmemory, -⟩ := reopen_exact hwhole hmem ⟨9⟩
  exact ⟨hwhole, hmem, above, habove, hmemory, by decide⟩

/-- A completed task can stay completed above one that is reopened. -/
theorem History.fence_stays_completed :
    ¬ ∀ t ∈ (after inMemory .empty fence).tasks, t.status = .completed →
      ∀ p ∈ (after inMemory .empty (fence ++ [(⟨⟨9⟩, ⟨9#128⟩⟩, .reopen t.id)])).tasks,
        p.id = t.id ∨ Below (after inMemory .empty fence).tasks p.id t.id →
          p.status = .pending := by
  intro h
  have hchain : ∃ p ∈ (after inMemory .empty (fence ++ [(⟨⟨9⟩, ⟨9#128⟩⟩, .reopen screw.id)])).tasks,
      ∃ gate ∈ (after inMemory .empty fence).tasks, ∃ hinge ∈ (after inMemory .empty fence).tasks,
        p.status = .completed ∧ gate.parent = some p.id ∧ hinge.parent = some gate.id ∧
          screw.parent = some hinge.id := by
    decide
  obtain ⟨p, hp, gate, hgate, hinge, hhinge, hdone, hgp, hhg, hsh⟩ := hchain
  have hscrew : screw ∈ (after inMemory .empty fence).tasks := by decide
  have hbelow := ((Below.child hgate hgp).trans (.child hhinge hhg)).trans (.child hscrew hsh)
  have hpending := h screw hscrew rfl p hp (.inr hbelow)
  rw [hdone] at hpending
  cases hpending

end Agenda
