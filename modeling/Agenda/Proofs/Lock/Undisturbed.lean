import Agenda.Proofs.Lock.Turns

/-!
# Projects that do not disturb each other

All projects share one registry, which changes whenever a worker of any project comes or goes.  The
workers of a project notice nothing of the others (`Workers.undisturbed`): with the steps of all
other workers left out, the same happens to them, in the same order and in the same steps, and after
each of their steps the project is locked or free as it was.

Whose step a step is, is a matter of the moment: it is a step for the project that its worker has a
ticket for, or else for the one that the worker comes for (`Workers.whose`).  A worker that has no
ticket and does not come for a project has not arrived yet or is gone.  A step of such a worker is
nobody's, and does nothing; it may be counted among those of the project or not (`idle`).  If every
worker comes for one project only, its home, then the steps of a project are those of the workers at
home there, whenever they are taken.

The two runs are compared line by line.  The workers of the full run stand in lines of all projects,
those of the run that is left stand in the same line of the one project, and in no other
(`Workers.alone`).  A step that concerns the project does the same to both, a step that concerns
another project leaves the line alone, and a step that concerns none does nothing.
-/

namespace Agenda.Lock

variable {ω : Type}

/-- The worker that a step is about. -/
def Step.worker : Step ω → ω
  | .start u _ | .order u _ | .cancel u => u

/-- The project that a worker comes for. -/
def Step.project? : Step ω → Option Uuid
  | .start _ p => some p
  | .order .. | .cancel _ => none

/-! ### What an act leaves of a line -/

namespace Line

/-- Who is left when a line has advanced was in it before. -/
theorem workers_advance_suffix (line : Line ω) : line.advance.1.workers <:+ line.workers := by
  induction line with
  | nil => exact List.suffix_refl _
  | cons x rest ih =>
    obtain ⟨u, _ | order⟩ := x
    · exact List.suffix_refl _
    · exact ih.trans (List.suffix_cons u _)

variable [DecidableEq ω] {line : Line ω} {u v : ω}

theorem mem_workers_depart {how : Happening} (hv : v ∈ (line.depart u how).1.workers) :
    v ∈ line.workers := by
  have hwithout (hv : v ∈ (line.without u).workers) : v ∈ line.workers := by
    obtain ⟨x, hx, rfl⟩ := List.mem_map.1 hv
    exact List.mem_map_of_mem (mem_without.1 hx).1
  unfold depart at hv
  split at hv
  · exact hwithout ((workers_advance_suffix _).subset hv)
  · exact hwithout hv

/-- Whoever is in the line after a step was in it before, or has just arrived. -/
theorem mem_workers_act {s : Step ω} (hv : v ∈ (line.act s).1.workers) :
    v ∈ line.workers ∨ ∃ q, s = .start v q := by
  cases s with
  | start u q =>
    obtain ⟨x, hx, rfl⟩ := List.mem_map.1 hv
    rcases List.mem_append.1 hx with hx | hx
    · exact .inl (List.mem_map_of_mem hx)
    · rw [List.mem_singleton.1 hx]
      exact .inr ⟨q, rfl⟩
  | order u order =>
    rw [act] at hv
    split at hv
    · exact .inl (mem_workers_depart hv)
    · rw [workers_instruct] at hv
      exact .inl hv
  | cancel u => exact .inl (mem_workers_depart hv)

/-- What happens in a step happens to workers that are in the line before it or after it. -/
theorem mem_act {lines : Uuid → Line ω} {p : Uuid} {s : Step ω} (hs : s.Concerns lines p)
    {e : Event ω} (he : e ∈ ((lines p).act s).2) :
    e.1 ∈ (lines p).workers ∨ e.1 ∈ ((lines p).act s).1.workers := by
  cases s with
  | start u q =>
    refine .inr
      (List.mem_map.2 ⟨(u, none), List.mem_append_right _ (List.mem_singleton_self _), ?_⟩)
    rw [act] at he
    dsimp only at he
    split at he
    · rw [List.mem_singleton.1 he]
    · cases he
  | order u order =>
    rw [act] at he
    split at he
    · exact .inl (mem_depart hs he)
    · cases he
  | cancel u => exact .inl (mem_depart hs he)

end Line

namespace Workers

/-! ### The two runs -/

section Runs

variable [DecidableEq ω] (p : Uuid) (idle : Step ω → Bool)

/-- The project that a worker has a ticket for. -/
def project? (w : Workers ω) (u : ω) : Option Uuid := (w.registry.ticket? u).map (·.project)

/-- The project whose step a step is: the one that the worker has a ticket for, or else the one that
it comes for. -/
def whose (w : Workers ω) (s : Step ω) : Option Uuid := (w.project? s.worker).or s.project?

/-- A step counts among those of the project. -/
def belongs (w : Workers ω) (s : Step ω) : Bool :=
  match w.whose s with
  | some q => q = p
  | none => idle s

/-- What happens in a step to the workers of the project, those who have a ticket for it before the
step or after it. -/
def happenings (w : Workers ω) (s : Step ω) : List (Event ω) :=
  (w.step s).2.filter fun e => w.project? e.1 = some p ∨ (w.step s).1.project? e.1 = some p

/-- All that happens to the workers of the project, in whatever steps. -/
def eventsOf : Workers ω → List (Step ω) → List (Event ω)
  | _, [] => []
  | w, s :: rest => w.happenings p s ++ eventsOf (w.step s).1 rest

/-- The steps of the project. -/
def stepsOf : Workers ω → List (Step ω) → List (Step ω)
  | _, [] => []
  | w, s :: rest =>
    if w.belongs p idle s then s :: stepsOf (w.step s).1 rest else stepsOf (w.step s).1 rest

/-- For each step of the project, what happens in it to the workers of the project, and whether the
project is locked afterwards. -/
def record : Workers ω → List (Step ω) → List (List (Event ω) × Bool)
  | _, [] => []
  | w, s :: rest =>
    if w.belongs p idle s then
      (w.happenings p s, (w.step s).1.registry.isLocked p) :: record (w.step s).1 rest
    else record (w.step s).1 rest

/-- For each step, all that happens in it, and whether the project is locked afterwards. -/
def reports : Workers ω → List (Step ω) → List (List (Event ω) × Bool)
  | _, [] => []
  | w, s :: rest => ((w.step s).2, (w.step s).1.registry.isLocked p) :: reports (w.step s).1 rest

end Runs

/-- The line of a project, and nobody in any other. -/
def alone (p : Uuid) (line : Line ω) : Uuid → Line ω := Function.update (fun _ => []) p line

@[simp] theorem alone_self (p : Uuid) (line : Line ω) : alone p line p = line :=
  Function.update_self ..

@[simp] theorem update_alone (p : Uuid) (line line' : Line ω) :
    Function.update (alone p line) p line' = alone p line' := Function.update_idem ..

theorem mem_alone {p q : Uuid} {line : Line ω} {u : ω} (hu : u ∈ (alone p line q).workers) :
    q = p ∧ u ∈ line.workers := by
  by_cases hq : q = p
  · subst hq
    rw [alone_self] at hu
    exact ⟨rfl, hu⟩
  · rw [alone, Function.update_of_ne hq] at hu
    cases hu

namespace Shows

variable [DecidableEq ω] {w v : Workers ω} {lines : Uuid → Line ω} {p q : Uuid} {s : Step ω} {u : ω}
  {idle : Step ω → Bool}

/-! ### Whose step it is -/

theorem project?_eq_some (h : w.Shows lines) : w.project? u = some q ↔ u ∈ (lines q).workers := by
  have hticket {q : Uuid} (hu : u ∈ (lines q).workers) : w.project? u = some q := by
    obtain ⟨n, ht, -⟩ := (h.registry.keeps q).ticket u hu
    rw [project?, ht]
    rfl
  refine ⟨fun hproject => ?_, hticket⟩
  have hsome : (w.registry.ticket? u).isSome = true := by
    rw [← Option.isSome_map, ← project?, hproject]
    rfl
  obtain ⟨q', hu⟩ := (h.registry.isSome_ticket? u).1 hsome
  rw [hticket hu] at hproject
  exact Option.some.inj hproject ▸ hu

theorem project?_eq_none (h : w.Shows lines) (hu : ∀ q, u ∉ (lines q).workers) :
    w.project? u = none := by
  rw [project?, h.registry.stranger u hu]
  rfl

/-- A step is a step of the project that it concerns. -/
theorem whose_of_concerns (h : w.Shows lines) (hs : s.Concerns lines q) : w.whose s = some q := by
  cases s with
  | start u q' =>
    obtain ⟨rfl, hu⟩ := hs
    rw [whose, Step.worker, h.project?_eq_none hu]
    rfl
  | order | cancel =>
    rw [whose, Step.worker, h.project?_eq_some.2 hs]
    rfl

/-- A step that counts among those of a project, and concerns none, concerns none either when the
others are not there. -/
theorem not_concerns_alone (h : w.Shows lines) (hs : ∀ q, ¬ s.Concerns lines q)
    (hmine : w.belongs p idle s = true) (q : Uuid) : ¬ s.Concerns (alone p (lines p)) q := by
  cases s with
  | start u q' =>
    rintro ⟨rfl, hu⟩
    -- the worker is there already, in the line of the project whose step this is
    have hthere : ∃ r, u ∈ (lines r).workers := by
      by_contra hno
      exact hs q' ⟨rfl, fun r hr => hno ⟨r, hr⟩⟩
    obtain ⟨r, hr⟩ := hthere
    have hwhose : w.whose (.start u q') = some r := by
      rw [whose, Step.worker, h.project?_eq_some.2 hr]
      rfl
    rw [belongs, hwhose] at hmine
    obtain rfl : r = p := of_decide_eq_true hmine
    have hout := hu r
    rw [alone_self] at hout
    exact hout hr
  | order u order => exact fun hu => hs p (mem_alone hu).2
  | cancel u => exact fun hu => hs p (mem_alone hu).2

/-! ### One step of both runs -/

/-- All that happens in a step of the project happens to its workers. -/
theorem happenings_self (h : w.Shows lines) (hs : s.Concerns lines p) :
    w.happenings p s = ((lines p).act s).2 := by
  obtain ⟨hshows, hevents⟩ := h.step hs
  rw [happenings, hevents]
  refine List.filter_eq_self.2 fun e he => decide_eq_true ?_
  rw [h.project?_eq_some, hshows.project?_eq_some, Function.update_self]
  exact Line.mem_act hs he

/-- Nothing happens to the workers of the project in a step of another one. -/
theorem happenings_of_ne (h : w.Shows lines) (hs : s.Concerns lines q) (hp : p ≠ q) :
    w.happenings p s = [] := by
  obtain ⟨hshows, hevents⟩ := h.step hs
  rw [happenings, hevents]
  refine List.filter_eq_nil_iff.2 fun e he hmine => ?_
  have hout := h.not_mem_line hs hp e he
  rw [Line.workers_room] at hout
  have hmine := of_decide_eq_true hmine
  rw [h.project?_eq_some, hshows.project?_eq_some, Function.update_of_ne hp, or_self] at hmine
  exact hout hmine

/-- Two registries in which the same workers stand in the line of a project agree on its lock. -/
theorem isLocked_eq {lines' : Uuid → Line ω} (h : w.Shows lines) (h' : v.Shows lines')
    (hp : lines p = lines' p) : w.registry.isLocked p = v.registry.isLocked p := by
  rw [Bool.eq_iff_iff, h.registry.isLocked_iff, h'.registry.isLocked_iff, hp]

/-! ### Whole runs -/

/-- **Two runs.**  A run with the workers of all projects and the run of the steps of one project,
in which the workers of that project stand in the same line, give the same account of it. -/
theorem record_eq (h : w.Shows lines) (h' : v.Shows (alone p (lines p))) (idle : Step ω → Bool)
    (steps : List (Step ω)) :
    w.record p idle steps = v.reports p (w.stepsOf p idle steps) ∧
      w.eventsOf p steps = (v.reports p (w.stepsOf p idle steps)).flatMap Prod.fst := by
  induction steps generalizing w v lines with
  | nil => exact ⟨rfl, rfl⟩
  | cons s rest ih =>
    rw [record, stepsOf, eventsOf]
    by_cases hs : ∃ q, s.Concerns lines q
    · obtain ⟨q, hs⟩ := hs
      have hshows := (h.step hs).1
      have hwhose := h.whose_of_concerns hs
      by_cases hp : p = q
      · -- a step of the project, which does the same to the line in both runs
        subst hp
        have hmine : w.belongs p idle s = true := by
          rw [belongs, hwhose]
          exact decide_eq_true rfl
        have hs' : s.Concerns (alone p (lines p)) p := by
          cases s with
          | start u q => exact ⟨hs.1, fun r hr => hs.2 p (mem_alone hr).2⟩
          | order | cancel => rwa [Step.Concerns, alone_self]
        obtain ⟨hshows', hevents'⟩ := h'.step hs'
        rw [alone_self] at hshows' hevents'
        rw [update_alone] at hshows'
        have hself : Function.update lines p ((lines p).act s).1 p = ((lines p).act s).1 :=
          Function.update_self ..
        have hlocked := hshows.isLocked_eq (p := p) hshows' (by rw [hself, alone_self])
        obtain ⟨hrecord, hall⟩ := ih hshows (by rwa [hself])
        rw [if_pos hmine, if_pos hmine, reports, List.flatMap_cons, h.happenings_self hs, hevents',
          hlocked, hrecord, hall]
        exact ⟨rfl, rfl⟩
      · -- a step of another project, which leaves the line alone
        have hmine : ¬ w.belongs p idle s = true := by
          rw [belongs, hwhose]
          exact fun hq => hp (of_decide_eq_true hq).symm
        rw [if_neg hmine, if_neg hmine, h.happenings_of_ne hs hp, List.nil_append]
        exact ih hshows (by rwa [Function.update_of_ne hp])
    · -- a step that does nothing, in either run
      have hnone : ∀ q, ¬ s.Concerns lines q := fun q hq => hs ⟨q, hq⟩
      have hstep := h.step_of_not_concerns hnone
      have hnothing : w.happenings p s = [] := by
        rw [happenings, hstep]
        rfl
      rw [hnothing, List.nil_append, hstep]
      split
      · rename_i hmine
        have hstep' := h'.step_of_not_concerns (h.not_concerns_alone hnone hmine)
        obtain ⟨hrecord, hall⟩ := ih h h'
        rw [reports, List.flatMap_cons, hstep', List.nil_append,
          h.isLocked_eq (p := p) h' (alone_self p (lines p)).symm, hrecord, hall]
        exact ⟨rfl, rfl⟩
      · exact ih h h'

/-- Whoever has a ticket after a step had it before, or has just come for that project. -/
theorem project?_step (h : w.Shows lines) (hu : (w.step s).1.project? u = some q) :
    w.project? u = some q ∨ s = .start u q := by
  by_cases hs : ∃ r, s.Concerns lines r
  · obtain ⟨r, hs⟩ := hs
    rw [(h.step hs).1.project?_eq_some] at hu
    by_cases hq : q = r
    · subst hq
      rw [Function.update_self] at hu
      rcases Line.mem_workers_act hu with hu | ⟨q', rfl⟩
      · exact .inl (h.project?_eq_some.2 hu)
      · rw [hs.1]
        exact .inr rfl
    · rw [Function.update_of_ne hq] at hu
      exact .inl (h.project?_eq_some.2 hu)
  · rw [h.step_of_not_concerns fun r hr => hs ⟨r, hr⟩] at hu
    exact .inl hu

/-- Some lines show whatever workers a step leaves. -/
theorem exists_step (h : w.Shows lines) (s : Step ω) : ∃ lines', (w.step s).1.Shows lines' := by
  by_cases hs : ∃ q, s.Concerns lines q
  · obtain ⟨q, hs⟩ := hs
    exact ⟨_, (h.step hs).1⟩
  · rw [h.step_of_not_concerns fun q hq => hs ⟨q, hq⟩]
    exact ⟨lines, h⟩

/-- If all workers have a home, the steps of a project are those of the workers at home there. -/
theorem stepsOf_home (h : w.Shows lines) {home : ω → Uuid} {steps : List (Step ω)}
    (hthere : ∀ u q, w.project? u = some q → home u = q)
    (hcome : ∀ u q, .start u q ∈ steps → home u = q) :
    w.stepsOf p (fun s => home s.worker = p) steps =
      steps.filter fun s => home s.worker = p := by
  induction steps generalizing w lines with
  | nil => rfl
  | cons s rest ih =>
    have hwhose : w.belongs p (fun s => home s.worker = p) s = decide (home s.worker = p) := by
      rw [belongs, whose]
      cases hticket : w.project? s.worker with
      | some q => rw [hthere _ q hticket, Option.some_or]
      | none =>
        cases s with
        | start u q => rw [Step.worker, hcome u q List.mem_cons_self]; rfl
        | order | cancel => rfl
    obtain ⟨lines', hshows⟩ := h.exists_step s
    have hrest := ih hshows
      (fun u q hu => (h.project?_step hu).elim (hthere u q) fun hs =>
        hcome u q (hs ▸ List.mem_cons_self))
      fun u q hu => hcome u q (List.mem_cons_of_mem _ hu)
    rw [stepsOf, List.filter_cons, hwhose, hrest]

end Shows

/-- **Undisturbed.**  In whatever steps are taken by workers of any projects, the same happens to
the workers of a project, and after each of their steps the project is locked or free, as in the run
of their steps alone; and nothing else happens to them in the steps of others.  If all workers have
a home, these are the steps of the workers at home in the project. -/
theorem undisturbed [DecidableEq ω] (p : Uuid) (steps : List (Step ω)) :
    (∀ idle : Step ω → Bool,
      let own := (empty : Workers ω).stepsOf p idle steps
      (empty : Workers ω).record p idle steps = (empty : Workers ω).reports p own ∧
        (empty : Workers ω).eventsOf p steps =
          ((empty : Workers ω).reports p own).flatMap Prod.fst) ∧
      ∀ home : ω → Uuid, (∀ u q, .start u q ∈ steps → home u = q) →
        (empty : Workers ω).stepsOf p (fun s => home s.worker = p) steps =
          steps.filter fun s => home s.worker = p := by
  have halone : alone p [] = fun _ => ([] : Line ω) := Function.update_eq_self p _
  refine ⟨fun idle => shows_empty.record_eq (halone ▸ shows_empty) idle steps, fun home hcome => ?_⟩
  refine shows_empty.stepsOf_home (fun u q hu => ?_) hcome
  exact absurd (shows_empty.project?_eq_some.1 hu) List.not_mem_nil

/-- Workers 1 and 3 are at home in one project, 2 and 4 in another. -/
theorem undisturbed_odd_workers :
    let p := Uuid.ofNat 1
    let home : Nat → Uuid := fun u => Uuid.ofNat (u % 2)
    let steps : List (Step Nat) := [.start 2 (home 2), .start 1 p, .start 4 (home 4), .start 3 p,
      .cancel 2, .order 3 .fail, .order 4 .finish, .order 1 .finish]
    (∀ u q, .start u q ∈ steps → home u = q) ∧
      empty.record p (fun s => home s.worker = p) steps =
        empty.reports p (steps.filter fun s => home s.worker = p) ∧
      empty.record p (fun s => home s.worker = p) steps =
        [([(1, .enter)], true), ([], true), ([], true),
          ([(1, .exit), (3, .enter), (3, .failed)], false)] := by
  intro p home steps
  have hcome : ∀ u q, .start u q ∈ steps → home u = q := by
    intro u q hstart
    have hcases : (u = 2 ∧ q = home 2) ∨ (u = 1 ∧ q = p) ∨ (u = 4 ∧ q = home 4) ∨
        (u = 3 ∧ q = p) := by simpa [steps] using hstart
    rcases hcases with ⟨rfl, rfl⟩ | ⟨rfl, rfl⟩ | ⟨rfl, rfl⟩ | ⟨rfl, rfl⟩ <;> rfl
  obtain ⟨hsame, hown⟩ := undisturbed p steps
  have hrecord := (hsame fun s => home s.worker = p).1
  rw [hown home hcome] at hrecord
  exact ⟨hcome, hrecord, hrecord.trans (by decide)⟩

end Workers

end Agenda.Lock
