import Agenda.Proofs.History.Media
import Agenda.Proofs.Program.Outcome

/-!
# How far completion reaches

Completing a task completes everything below it, and a stretch of the tasks above it.  **The stretch
is as long as it can be** (`Completion.complete_exact`): of the tasks above, the first ones are
completed, as many as were pending one after another, with no pending child but the one on the way
to the task.  Nothing else is written, and nothing fails, whatever the statuses and the orders are.

What the program does has been told as a climb that stops somewhere (`Catalog.Spreads`).  Here the
climb is held against the lineage of the task, which is there before anything is written: the climb
is a beginning of the lineage, and the longest one that passes (`Ascent.isGreatest_reaches`).  A
session of a database follows the catalog on the whole way, if the rows pass their checks and their
orders fit the columns (`Program.outcome_holding`).
-/

namespace Agenda

variable {α : Type} {c : Catalog} {t s : Task} {now : Instant}

/-- A program that has no answer to a number that does not fit, and keeps a catalog tidy, does in a
session what it does in memory. -/
theorem Program.outcome_holding (opened : Database) {p : Program α} {n : Nat}
    {Q : Except Failure α → Catalog → Prop}
    (hp : p.Steady (fun name => name.isWritable = true) Failure.IsUnfit n) (h : c.Forest)
    (hvalid : c.Valid) (hfits : c.Fits columnLimit)
    (hm : p.Meets now (c.KeepsTidy True 9223372036854775808) Q c) :
    p.outcome now (Session.holding opened c) =
      ((p.outcome now c).1, Session.holding opened (p.outcome now c).2) := by
  have htidy : c.Tidy 9223372036854775808 := ⟨h, hvalid, hfits.order_lt⟩
  have hkept := hm.through fun _ hkeeps => hkeeps.tidy trivial htidy
  rcases run_holding opened hp trivial htidy hkept with ⟨hresult, hstore⟩ | ⟨hbig, -⟩
  · exact Prod.ext hresult hstore
  · exact absurd hbig (Nat.lt_irrefl _)

namespace Catalog

/-- A task, everything below it, and the first `k` of the tasks above it. -/
def Reached (c : Catalog) (t : Task) (above : List Task) (k : Nat) (s : Task) : Prop :=
  s = t ∨ Below c.tasks t.id s.id ∨ s ∈ above.take k

/-- After some tasks have been given a status, these have it, and those that had it before. -/
theorem exists_status_iff (c : Catalog) (now : Instant) (status : Status) (P : Task → Prop)
    [DecidablePred P] (u : Uuid) :
    (∃ s ∈ (c.revise fun s =>
        if P s then { s with status := status, updated := now } else s).tasks,
      s.id = u ∧ s.status = status) ↔ ∃ s ∈ c.tasks, s.id = u ∧ (s.status = status ∨ P s) := by
  have hone (s : Task) : (if P s then { s with status := status, updated := now } else s).id = u ∧
      (if P s then { s with status := status, updated := now } else s).status = status ↔
        s.id = u ∧ (s.status = status ∨ P s) := by
    by_cases hP : P s
    · rw [if_pos hP]
      exact and_congr Iff.rfl (iff_of_true rfl (.inr hP))
    · rw [if_neg hP]
      exact and_congr Iff.rfl ⟨.inl, fun hboth => hboth.resolve_right hP⟩
  constructor
  · rintro ⟨_, hs', hstatus⟩
    obtain ⟨s, hs, rfl⟩ := List.mem_map.1 hs'
    exact ⟨s, hs, (hone s).1 hstatus⟩
  · rintro ⟨s, hs, hstatus⟩
    exact ⟨_, List.mem_map_of_mem hs, (hone s).2 hstatus⟩

end Catalog

namespace Completion

/-- The identifiers that completing a task writes to are those of the tasks reached. -/
theorem mem_written_iff (h : c.Forest) (ht : t ∈ c.tasks) (hs : s ∈ c.tasks) {above : List Task}
    (habove : Lineage c.tasks t above) (k : Nat) :
    s.id ∈ c.subtree t ++ (above.take k).map (·.id) ↔ c.Reached t above k s := by
  have hstored : ∀ p ∈ above.take k, p ∈ c.tasks := fun p hp =>
    (habove.above ht p (List.mem_of_mem_take hp)).1
  exact Catalog.mem_subtree_append h ht hstored hs

open Classical in
/-- **Completing, exactly.**  Completing a stored task does not fail.  It completes the task and all
tasks below it, and of the tasks above it the first `k`, where `k` is the largest number such that
each of them was pending, with all its children completed but the one that it is reached from.  It
writes to these tasks only, their status and the time of their change. -/
theorem complete_exact (h : c.Whole) (ht : t ∈ c.tasks) (now : Instant) :
    ∃ above k, Lineage c.tasks t above ∧ IsGreatest (reaches c.LastOpen t above) k ∧
      let c' := c.revise fun s =>
        if c.Reached t above k s then { s with status := .completed, updated := now } else s
      (complete t.id).outcome now c = (.ok { t with status := .completed }, c') ∧
        (∀ u, (∃ s ∈ c'.tasks, s.id = u ∧ s.status = .completed) ↔
          ∃ s ∈ c.tasks, s.id = u ∧ (s.status = .completed ∨ c.Reached t above k s)) ∧
        ∀ opened : Database, c.Valid → c.Fits columnLimit →
          (complete t.id).outcome now (Session.holding opened c) =
            (.ok { t with status := .completed }, Session.holding opened c') := by
  have hmeets : (complete t.id).Meets now (c.KeepsTidy True 9223372036854775808)
      (fun r c' => r = .ok { t with status := .completed } ∧ c.Spreads now t .completed c') c :=
    meets_complete h.ids h.acyclic h.parentStored ht fun c' hc' => .restated hc'
  obtain ⟨above, habove⟩ := h.acyclic.exists_ascent (fun _ _ => True) h.parentStored ht
  obtain ⟨hresult, hspreads⟩ := hmeets.run
  generalize hc' : ((complete t.id).run now c).store = c' at hspreads
  cases hspreads with
  | @completed ps hps =>
    obtain ⟨k, rfl, hk⟩ := hps.isGreatest_reaches h.ids habove
    refine ⟨above, k, habove, hk, ?_⟩
    dsimp only
    have hwritten : c.restate now .completed (c.subtree t ++ (above.take k).map (·.id)) =
        c.revise fun s =>
          if c.Reached t above k s then { s with status := .completed, updated := now } else s :=
      Catalog.revise_congr fun s hs => if_congr (mem_written_iff h.toForest ht hs habove k) rfl rfl
    rw [hwritten] at hc'
    have hmemory : (complete t.id).outcome now c = (.ok { t with status := .completed }, _) :=
      Prod.ext hresult hc'
    refine ⟨hmemory, Catalog.exists_status_iff c now .completed _, fun opened hvalid hfits => ?_⟩
    have hsession := Program.outcome_holding opened (steady_complete (k := 0) t.id) h.toForest
      hvalid hfits hmeets
    rw [hsession]
    exact congrArg (fun ran => (ran.1, Session.holding opened ran.2)) hmemory

end Completion

/-! ### A household -/

/-- Something to do below something to do. -/
def corners : Task := ⟨⟨5#128⟩, "Corners", ⟨1#128⟩, some ⟨4#128⟩, .pending, 0, ⟨5⟩, ⟨5⟩⟩

/-- Three things to do, and the first of them in parts. -/
def household : Catalog where
  projects := [⟨⟨1#128⟩, "Home", ⟨1⟩⟩]
  tasks := [⟨⟨2#128⟩, "Sweep", ⟨1#128⟩, none, .pending, 0, ⟨2⟩, ⟨2⟩⟩,
    ⟨⟨3#128⟩, "Attic", ⟨1#128⟩, some ⟨2#128⟩, .completed, 0, ⟨3⟩, ⟨8⟩⟩,
    ⟨⟨4#128⟩, "Hall", ⟨1#128⟩, some ⟨2#128⟩, .pending, 1, ⟨4⟩, ⟨4⟩⟩, corners,
    ⟨⟨6#128⟩, "Cook", ⟨1#128⟩, none, .pending, 1, ⟨6⟩, ⟨6⟩⟩,
    ⟨⟨7#128⟩, "Wash", ⟨1#128⟩, none, .pending, 2, ⟨7⟩, ⟨7⟩⟩]

theorem sound_household : household.Sound :=
  History.sound_after
    [(⟨⟨1⟩, ⟨1#128⟩⟩, .createProject "Home"), (⟨⟨2⟩, ⟨2#128⟩⟩, .createTask "Sweep" ⟨1#128⟩ none),
      (⟨⟨3⟩, ⟨3#128⟩⟩, .createTask "Attic" ⟨1#128⟩ (some ⟨2#128⟩)),
      (⟨⟨4⟩, ⟨4#128⟩⟩, .createTask "Hall" ⟨1#128⟩ (some ⟨2#128⟩)),
      (⟨⟨5⟩, ⟨5#128⟩⟩, .createTask "Corners" ⟨1#128⟩ (some ⟨4#128⟩)),
      (⟨⟨6⟩, ⟨6#128⟩⟩, .createTask "Cook" ⟨1#128⟩ none),
      (⟨⟨7⟩, ⟨7#128⟩⟩, .createTask "Wash" ⟨1#128⟩ none), (⟨⟨8⟩, ⟨8#128⟩⟩, .complete ⟨3#128⟩)]

open Classical in
/-- With the corners, the hall is done, and with the hall all of the sweeping. -/
theorem Completion.complete_exact_corners :
    household.Whole ∧ corners ∈ household.tasks ∧
      ∃ above k, Lineage household.tasks corners above ∧
        IsGreatest (reaches household.LastOpen corners above) k ∧
        (complete corners.id).outcome ⟨9⟩ household = (.ok { corners with status := .completed },
          household.revise fun s => if household.Reached corners above k s
            then { s with status := .completed, updated := ⟨9⟩ } else s) ∧
        ((complete corners.id).outcome ⟨9⟩ household).2.tasks.map (·.status) =
          [.completed, .completed, .completed, .completed, .pending, .pending] := by
  have hmem : corners ∈ household.tasks := by decide
  obtain ⟨above, k, habove, hk, hmemory, -⟩ :=
    complete_exact sound_household.wellFormed.whole hmem ⟨9⟩
  exact ⟨sound_household.wellFormed.whole, hmem, above, k, habove, hk, hmemory, by decide⟩

end Agenda
