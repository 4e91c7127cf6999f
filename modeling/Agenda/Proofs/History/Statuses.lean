import Agenda.Proofs.Engine.Statuses
import Agenda.Proofs.History.Reopening

/-!
# Statuses in the end

Two laws about giving statuses to tasks, one after another.

**Order does not matter** (`Completion.setEach_statuses_eq`).  When stored tasks are all given one
status, what every task comes to is decided by which tasks they are: in what order they come and how
often, makes no difference, although each of them climbs over what those before it have left.

**There and back** (`Completion.reopen_complete_restores`).  In a settled catalog, where a parent is
completed just when all its children are, reopening a completed task and completing it again leaves
every task with the status that it had.

Both rest on the rules for what becomes of statuses (`StatusBy`), which one task keeps
(`Catalog.Spreads.given`), and with it a whole list (`Completion.exists_setEach`).
-/

namespace Agenda

namespace Completion

open Program

/-- Gives one status to tasks, one after another and each at an instant of its own, up to the first
failure. -/
def setEach {σ : Type} [Store.Backend σ] (status : Status) :
    List (Instant × Uuid) → σ → Except Failure Unit × σ
  | [], s => (.ok (), s)
  | (now, id) :: rest, s =>
    follow ((set id status).outcome now s) fun _ s' => setEach status rest s'

variable {c : Catalog} {t : Task} {status : Status} {ws ws' : List (Instant × Uuid)}

/-! ### One status for many tasks -/

/-- **Many tasks.**  Giving a status to stored tasks does not fail, in memory and in a session, and
leads to what the rules say. -/
theorem exists_setEach (h : c.Whole) (status : Status)
    (hstored : ∀ w ∈ ws, ∃ t ∈ c.tasks, t.id = w.2) :
    ∃ c', setEach status ws c = (.ok (), c') ∧ c.Given status (ws.map (·.2)) c' ∧
      ∀ opened : Database, c.Valid → c.Fits columnLimit →
        setEach status ws (Session.holding opened c) = (.ok (), Session.holding opened c') := by
  -- along the list: the catalog stays whole, and its rows keep their checks and their limit
  induction ws generalizing c with
  | nil => exact ⟨c, rfl, .refl h.ids status, fun _ _ _ => rfl⟩
  | cons w rest ih =>
    obtain ⟨now, id⟩ := w
    obtain ⟨t, ht, rfl⟩ := hstored (now, id) List.mem_cons_self
    obtain ⟨c₁, hspreads, hmemory, hsession⟩ := exists_outcome_set h ht now status
    have hrestated := hspreads.restated
    have hstored₁ : ∀ w ∈ rest, ∃ t ∈ c₁.tasks, t.id = w.2 := by
      intro w hw
      obtain ⟨s, hs, hid⟩ := hstored w (List.mem_cons_of_mem _ hw)
      obtain ⟨s₁, hs₁, hid₁⟩ := hrestated.exists_mem hs
      exact ⟨s₁, hs₁, hid₁.trans hid⟩
    obtain ⟨c', hrest, hgiven, hfollows⟩ := ih (hrestated.whole h) hstored₁
    refine ⟨c', ?_, (hspreads.given h.toForest ht).trans hgiven, fun opened hvalid hfits => ?_⟩
    · rw [setEach, hmemory, follow_ok, hrest]
    · rw [setEach, hsession opened hvalid hfits, follow_ok,
        hfollows opened (hrestated.valid hvalid) (hrestated.fits hfits)]

/-- **Order does not matter.**  Stored tasks are given a status, one after another, with repetitions
allowed.  No call fails; and another list of the same tasks leaves all tasks with the same statuses,
which are those that the rules tell from the tasks alone. -/
theorem setEach_statuses_eq (h : c.Whole) (status : Status)
    (hstored : ∀ w ∈ ws, ∃ t ∈ c.tasks, t.id = w.2)
    (hsame : ∀ u, u ∈ ws.map (·.2) ↔ u ∈ ws'.map (·.2)) :
    ∃ c₁ c₂, setEach status ws c = (.ok (), c₁) ∧ setEach status ws' c = (.ok (), c₂) ∧
      c.Restated c₁ ∧ c.Restated c₂ ∧ c₁.statuses = c₂.statuses ∧
      (∀ s ∈ c₁.tasks, s.status = status ↔ StatusBy c.tasks (ws.map (·.2)) status s.id) ∧
      ∀ opened : Database, c.Valid → c.Fits columnLimit →
        setEach status ws (Session.holding opened c) = (.ok (), Session.holding opened c₁) ∧
          setEach status ws' (Session.holding opened c) = (.ok (), Session.holding opened c₂) := by
  have hstored' : ∀ w ∈ ws', ∃ t ∈ c.tasks, t.id = w.2 := by
    intro w hw
    obtain ⟨w₁, hw₁, hid⟩ := List.mem_map.1 ((hsame w.2).2 (List.mem_map_of_mem hw))
    obtain ⟨t, ht, hid'⟩ := hstored w₁ hw₁
    exact ⟨t, ht, hid'.trans hid⟩
  obtain ⟨c₁, hmemory, hgiven, hsession⟩ := exists_setEach h status hstored
  obtain ⟨c₂, hmemory', hgiven', hsession'⟩ := exists_setEach h status hstored'
  exact ⟨c₁, c₂, hmemory, hmemory', hgiven.restated, hgiven'.restated,
    hgiven.statuses_eq hgiven' hsame, fun s hs => hgiven.status_iff hs,
    fun opened hvalid hfits => ⟨hsession opened hvalid hfits, hsession' opened hvalid hfits⟩⟩

/-- The washing, and then the corners. -/
def washingFirst : List (Instant × Uuid) := [(⟨9⟩, ⟨7#128⟩), (⟨10⟩, ⟨5#128⟩)]

/-- The corners, the washing, and the corners once more. -/
def washingBetween : List (Instant × Uuid) := [(⟨9⟩, ⟨5#128⟩), (⟨10⟩, ⟨7#128⟩), (⟨11⟩, ⟨5#128⟩)]

theorem setEach_statuses_eq_washing :
    household.Whole ∧ (∀ w ∈ washingFirst, ∃ t ∈ household.tasks, t.id = w.2) ∧
      (∀ u, u ∈ washingFirst.map (·.2) ↔ u ∈ washingBetween.map (·.2)) ∧
      ∃ c₁ c₂, setEach .completed washingFirst household = (.ok (), c₁) ∧
        setEach .completed washingBetween household = (.ok (), c₂) ∧
        c₁.statuses = c₂.statuses ∧ c₁.statuses.map (·.2) =
          [.completed, .completed, .completed, .completed, .pending, .completed] := by
  have hwhole := sound_household.wellFormed.whole
  have hstored : ∀ w ∈ washingFirst, ∃ t ∈ household.tasks, t.id = w.2 := by decide
  have hsame : ∀ u, u ∈ washingFirst.map (·.2) ↔ u ∈ washingBetween.map (·.2) := by
    intro u
    simp only [washingFirst, washingBetween, List.map_cons, List.map_nil, List.mem_cons,
      List.not_mem_nil, or_false]
    tauto
  obtain ⟨c₁, c₂, hmemory, hmemory', -, -, hstatuses, -⟩ :=
    setEach_statuses_eq hwhole .completed hstored hsame
  have hc₁ : (setEach .completed washingFirst household).2 = c₁ := congrArg Prod.snd hmemory
  refine ⟨hwhole, hstored, hsame, c₁, c₂, hmemory, hmemory', hstatuses, ?_⟩
  rw [← hc₁]
  decide

/-! ### There and back -/

/-- **There and back.**  In a settled catalog a completed task is reopened, and completed again.
Neither fails, and in the end all tasks have the statuses that they had. -/
theorem reopen_complete_restores (h : c.Whole) (hsettled : c.Settled) (ht : t ∈ c.tasks)
    (hdone : t.status = .completed) (now later : Instant) :
    ∃ c₁ c₂ t₁, (reopen t.id).outcome now c = (.ok { t with status := .pending }, c₁) ∧
      t₁ ∈ c₁.tasks ∧ t₁.id = t.id ∧ t₁.status = .pending ∧
      (complete t.id).outcome later c₁ = (.ok { t₁ with status := .completed }, c₂) ∧
      c.Restated c₂ ∧ c₂.statuses = c.statuses ∧
      ∀ opened : Database, c.Valid → c.Fits columnLimit →
        (reopen t.id).outcome now (Session.holding opened c) =
            (.ok { t with status := .pending }, Session.holding opened c₁) ∧
          (complete t.id).outcome later (Session.holding opened c₁) =
            (.ok { t₁ with status := .completed }, Session.holding opened c₂) := by
  obtain ⟨c₁, hspreads₁, hmemory₁, hsession₁⟩ := exists_outcome_set h ht now .pending
  have hrestated := hspreads₁.restated
  have hopened := hspreads₁.given h.toForest ht
  obtain ⟨t₁, ht₁, hid⟩ := hrestated.exists_mem ht
  have hwhole₁ := hrestated.whole h
  obtain ⟨c₂, hspreads₂, hmemory₂, hsession₂⟩ := exists_outcome_set hwhole₁ ht₁ later .completed
  have hagain := hspreads₂.given hwhole₁.toForest ht₁
  rw [hid] at hagain
  have hpending : t₁.status = .pending := by
    rw [hopened.status_iff ht₁, hid]
    exact OpenBy.asked ht List.mem_cons_self
  refine ⟨c₁, c₂, t₁, hmemory₁, ht₁, hid, hpending, ?_, hrestated.trans hspreads₂.restated,
    hsettled.statuses_eq h.toForest ht hdone hopened hagain, fun opened hvalid hfits => ?_⟩
  · rw [← hid]
    exact hmemory₂
  · refine ⟨hsession₁ opened hvalid hfits, ?_⟩
    rw [← hid]
    exact hsession₂ opened (hrestated.valid hvalid) (hrestated.fits hfits)

end Completion

/-- Corners that are done. -/
def dusted : Task := ⟨⟨5#128⟩, "Corners", ⟨1#128⟩, some ⟨4#128⟩, .completed, 0, ⟨5⟩, ⟨6⟩⟩

/-- The hall has been swept with its corners, and the attic has not. -/
def halfSwept : Catalog where
  projects := [⟨⟨1#128⟩, "Home", ⟨1⟩⟩]
  tasks := [⟨⟨2#128⟩, "Sweep", ⟨1#128⟩, none, .pending, 0, ⟨2⟩, ⟨2⟩⟩,
    ⟨⟨3#128⟩, "Attic", ⟨1#128⟩, some ⟨2#128⟩, .pending, 0, ⟨3⟩, ⟨3⟩⟩,
    ⟨⟨4#128⟩, "Hall", ⟨1#128⟩, some ⟨2#128⟩, .completed, 1, ⟨4⟩, ⟨6⟩⟩, dusted]

theorem sound_halfSwept : halfSwept.Sound :=
  History.sound_after
    [(⟨⟨1⟩, ⟨1#128⟩⟩, .createProject "Home"), (⟨⟨2⟩, ⟨2#128⟩⟩, .createTask "Sweep" ⟨1#128⟩ none),
      (⟨⟨3⟩, ⟨3#128⟩⟩, .createTask "Attic" ⟨1#128⟩ (some ⟨2#128⟩)),
      (⟨⟨4⟩, ⟨4#128⟩⟩, .createTask "Hall" ⟨1#128⟩ (some ⟨2#128⟩)),
      (⟨⟨5⟩, ⟨5#128⟩⟩, .createTask "Corners" ⟨1#128⟩ (some ⟨4#128⟩)),
      (⟨⟨6⟩, ⟨6#128⟩⟩, .complete ⟨5#128⟩)]

/-- With the corners the hall is reopened, and with the corners it is done again. -/
theorem Completion.reopen_complete_restores_dusted :
    halfSwept.Whole ∧ halfSwept.Settled ∧ dusted ∈ halfSwept.tasks ∧ dusted.status = .completed ∧
      ∃ (c₁ c₂ : Catalog) (t₁ : Task),
        (reopen dusted.id).outcome ⟨7⟩ halfSwept =
          (.ok { dusted with status := .pending }, c₁) ∧
        (complete dusted.id).outcome ⟨8⟩ c₁ = (.ok { t₁ with status := .completed }, c₂) ∧
        c₁.statuses.map (·.2) = [.pending, .pending, .pending, .pending] ∧
        c₂.statuses.map (·.2) = [.pending, .pending, .completed, .completed] := by
  have hwhole := sound_halfSwept.wellFormed.whole
  have hsettled : halfSwept.Settled := by
    unfold Catalog.Settled
    decide
  have hmem : dusted ∈ halfSwept.tasks := by decide
  obtain ⟨c₁, c₂, t₁, hmemory, -, -, -, hmemory', -, hstatuses, -⟩ :=
    reopen_complete_restores hwhole hsettled hmem rfl ⟨7⟩ ⟨8⟩
  have hc₁ : ((reopen dusted.id).outcome ⟨7⟩ halfSwept).2 = c₁ := congrArg Prod.snd hmemory
  refine ⟨hwhole, hsettled, hmem, rfl, c₁, c₂, t₁, hmemory, hmemory', ?_, ?_⟩
  · rw [← hc₁]
    decide
  · rw [hstatuses]
    decide

end Agenda
