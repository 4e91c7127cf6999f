import Agenda.Proofs.Concurrent.Serial
import Agenda.Proofs.Operation.Faults
import Agenda.Proofs.Operation.LastWrite

/-!
# One operation among outsiders

An operation is launched while outsiders hold some projects, and the projects are given back one
after another.  If it needs a project that is held it waits, and is carried out when that project is
given back; in any case it comes to what it comes to with nobody else around (`Scene.Lone`).  This
holds of any program, so also of an operation with a fault in it.

**A failure leaves nothing behind** (`Scene.failed_unharmed`).  An operation that writes once, or
not at all, may refuse its arguments or be struck by a fault in any of its calls: when it has
failed, the records are what they were, and no project is locked but those that outsiders still
hold.
-/

namespace Agenda.Scene

open Program

variable {s : Scene Catalog Answer} {held : List Uuid} {project : Uuid}
  {run : Except Failure Answer × Catalog}

theorem waitingFor_finished (r : Except Failure Answer) (q : Uuid) :
    waitingFor [.finished r] q = [] :=
  waitingFor_append_finished [] r q

theorem waitingFor_waiting (now : Instant) (project : Uuid) (body : Program Answer) (q : Uuid) :
    waitingFor [.waiting now project body] q = if project = q then [0] else [] :=
  waitingFor_append_waiting [] now project body q

/-- A scene of one operation that comes to a given end, while outsiders hold some projects. -/
structure Lone (run : Except Failure Answer × Catalog) (held : List Uuid)
    (s : Scene Catalog Answer) : Prop where
  /-- The locks stand for the outsiders, and for the operation if it waits. -/
  locks : s.locks.Shows (queue held s.jobs)
  /-- The operation has come to its end, or it is going to once its project is given back. -/
  job : (s.jobs = [.finished run.1] ∧ s.store = run.2) ∨
    ∃ now project body, s.jobs = [.waiting now project body] ∧ project ∈ held ∧
      body.outcome now s.store = run

namespace Lone

/-- It does not matter in which order the outsiders have come. -/
theorem perm (h : Lone run held s) {held' : List Uuid} (hp : held'.Perm held) :
    Lone run held' s where
  locks := by
    rw [queue_perm hp]
    exact h.locks
  job := h.job.imp_right fun ⟨now, project, body, hjob, hheld, hrun⟩ =>
    ⟨now, project, body, hjob, hp.mem_iff.2 hheld, hrun⟩

/-- **The launch.** -/
theorem launch (now : Instant) (p : Program (Plan Answer))
    (hlocks : s.locks.Shows (queue held s.jobs)) (hjobs : s.jobs = []) :
    Lone ((Plan.alone p).outcome now s.store) held (s.launch now p) := by
  have halone : (Plan.alone p).outcome now s.store = _ := Plan.outcome_alone p
  have hlaunched := launched now p hlocks fun q _ => by rw [hjobs]; rfl
  generalize s.launch now p = s' at hlaunched ⊢
  cases hlaunched with
  | finished hrun hlocks' log =>
    refine ⟨hlocks', .inl ?_⟩
    rw [hrun, hjobs]
    exact ⟨rfl, rfl⟩
  | @waiting project body c' locks hplan hheld hlocks' log =>
    refine ⟨hlocks', .inr ⟨now, project, body, by rw [hjobs]; rfl, hheld, ?_⟩⟩
    rw [halone, hplan]
    rfl

/-- The operation has come to its end and leaves its project to nobody. -/
theorem giveBack (n : Nat) {u : Party} (hp : project ∉ held) (hjobs : s.jobs = [.finished run.1])
    (hstore : s.store = run.2)
    (hlocks : s.locks.Shows (Function.update (queue held s.jobs) project [u])) :
    Lone run held (giveBack (n + 1) u s) := by
  obtain ⟨locks, hstep, hshows⟩ :=
    giveBack_last n hp (by rw [hjobs, waitingFor_finished]) hlocks
  rw [hstep]
  exact ⟨hshows, .inl ⟨hjobs, hstore⟩⟩

/-- **A project is given back.**  If the operation waits for it, it has its turn. -/
theorem release (h : Lone run (project :: held) s) (hp : project ∉ held) :
    Lone run held (s.release project) := by
  have hlocks := h.locks
  rw [queue_cons_held] at hlocks
  rcases h.job with ⟨hjobs, hstore⟩ | ⟨now, project', body, hjobs, hheld, hrun⟩
  · rw [hjobs, waitingFor_finished, ← hjobs] at hlocks
    exact giveBack _ hp hjobs hstore hlocks
  · by_cases hproject : project' = project
    · -- the turn of the operation
      obtain rfl := hproject
      rw [hjobs, waitingFor_waiting, if_pos rfl, ← hjobs] at hlocks
      obtain ⟨hleft, hnext⟩ := hlocks.leave_first
      have hjob : s.jobs[0]? = some (.waiting now project' body) := by rw [hjobs]; rfl
      have hfuel : s.jobs.length + 1 = 0 + 1 + 1 := by rw [hjobs]; rfl
      obtain ⟨log, hstep⟩ := giveBack_some (0 + 1) hnext hjob
      rw [Scene.release, hfuel, hstep, hrun, hjobs]
      refine giveBack 0 hp rfl rfl ?_
      rw [← hjobs, update_queue fun q hq => ?_]
      · exact hleft
      · rw [hjobs, List.set_cons_zero, waitingFor_finished, waitingFor_waiting, if_neg (Ne.symm hq)]
    · -- the operation waits for another project
      have hfree : waitingFor s.jobs project = [] := by
        rw [hjobs, waitingFor_waiting, if_neg hproject]
      rw [hfree] at hlocks
      obtain ⟨locks, hstep, hshows⟩ := giveBack_last s.jobs.length hp hfree hlocks
      rw [Scene.release, hstep]
      have hstill := (List.mem_cons.1 hheld).resolve_left hproject
      exact ⟨hshows, .inr ⟨now, project', body, hjobs, hstill, hrun⟩⟩

/-- **Every stage.**  What is true at the launch stays true while projects are given back. -/
theorem stages {released : List Uuid} (h : Lone run released s) (hreleased : released.Nodup)
    {k : Nat} {s' : Scene Catalog Answer} (hs' : (stages s released)[k]? = some s') :
    Lone run (released.drop k) s' := by
  induction released generalizing s k with
  | nil =>
    cases k with
    | zero =>
      obtain rfl := Option.some.inj hs'
      exact h
    | succ k => cases hs'
  | cons q released ih =>
    obtain ⟨hq, hrest⟩ := List.nodup_cons.1 hreleased
    cases k with
    | zero =>
      obtain rfl := Option.some.inj hs'
      exact h
    | succ k => exact ih (h.release hq) hrest hs'

/-- An operation with a result has come to its end, and only outsiders hold projects. -/
theorem ended (h : Lone run held s) {r : Except Failure Answer} (hr : s.results = [some r]) :
    run = (r, s.store) ∧ ∀ q, s.locks.isLocked q = true ↔ q ∈ held := by
  rcases h.job with ⟨hjobs, hstore⟩ | ⟨now, project, body, hjobs, -⟩
  · rw [results, hjobs] at hr
    obtain rfl := Option.some.inj (List.cons.inj hr).1
    refine ⟨by rw [hstore], fun q => ?_⟩
    rw [h.locks.isLocked_iff, hjobs, queue, waitingFor_finished]
    by_cases hq : q ∈ held <;> simp [hq]
  · rw [results, hjobs] at hr
    cases hr

/-- Once no outsider is left, the operation has come to its end and no lock is left. -/
theorem last (h : Lone run [] s) :
    s.results = [some run.1] ∧ s.store = run.2 ∧ s.locks.size = 0 := by
  rcases h.job with ⟨hjobs, hstore⟩ | ⟨now, project, body, -, hheld, -⟩
  · refine ⟨by rw [results, hjobs]; rfl, hstore, h.locks.size_eq_zero fun q => ?_⟩
    rw [queue_of_not_mem List.not_mem_nil, hjobs, waitingFor_finished]
    rfl
  · exact absurd hheld List.not_mem_nil

end Lone

/-! ### Failures -/

theorem length_stages (first : Scene Catalog Answer) (released : List Uuid) :
    (stages first released).length = released.length + 1 := by
  induction released generalizing first with
  | nil => rfl
  | cons q released ih => exact congrArg (· + 1) (ih _)

/-- **The launch among outsiders.** -/
theorem lone_started (p : Program (Plan Answer)) (now : Instant) (c : Catalog)
    {locks : Lock.Registry Party} (hidle : locks.Idle) (hheld : held.Nodup) :
    Lone ((Plan.alone p).outcome now c) held (started c locks held [(now, p)]) := by
  obtain ⟨locks', log, htake, hlocks⟩ := take_eq (s := ⟨c, locks, [], []⟩) held []
    (by rwa [List.nil_append]) hidle.shows fun _ => rfl
  rw [List.nil_append] at hlocks
  rw [started, htake]
  exact Lone.launch (s := ⟨c, locks', [], log⟩) now p hlocks rfl

/-- **A failure leaves nothing behind.**  Let an operation that does not go through several tasks be
launched on records in memory, with or without a fault, while outsiders hold some projects.  At any
time at which it has failed, the records are what they were before, and the projects that are locked
are those that outsiders still hold.  When all projects are given back, it has come to its end and
no lock is left. -/
theorem failed_unharmed {op : Operation} (hop : ¬ op.IsCascade) (on : Occasion)
    (fault : Option Fault) (c : Catalog) {locks : Lock.Registry Party} (hidle : locks.Idle)
    {held released : List Uuid} (hheld : held.Nodup) (hreleased : released.Perm held) :
    let p := Plan.inject fault (op.plan on)
    let first := started c locks held [(on.now, p)]
    (∀ k s e, (stages first released)[k]? = some s → s.results = [some (.error e)] →
      s.store = c ∧ ∀ q, s.locks.isLocked q = true ↔ q ∈ released.drop k) ∧
    ∃ last, (stages first released).getLast? = some last ∧
      last.results = [some ((Plan.alone p).outcome on.now c).1] ∧ last.locks.size = 0 := by
  intro p first
  have hnodup := hreleased.nodup_iff.2 hheld
  have hfirst : Lone ((Plan.alone p).outcome on.now c) released first :=
    (lone_started p on.now c hidle hheld).perm hreleased
  have hunharmed : ∀ e c', (Plan.alone p).outcome on.now c = (.error e, c') → c' = c := by
    intro e c' hfailed
    rw [Plan.alone_inject, outcome_map] at hfailed
    obtain ⟨hresult, rfl⟩ := Prod.mk.inj hfailed
    have hrelays : ∀ f ∈ fault, (Plan.alone (op.plan on)).Relays (· = f.failure) 1 := fun f _ =>
      (Operation.steady_of_delete (P := fun _ => True) (k := 0) (fun _ _ => trivial)
        (fun id hid => absurd (hid ▸ trivial) hop) on).relays
    cases hinjected : (((Plan.alone (op.plan on)).inject fault).outcome on.now c).1 with
    | ok x =>
      rw [hinjected] at hresult
      cases hresult
    | error e' => exact (Operation.writesLast_alone hop on).unharmed hrelays hinjected
  refine ⟨fun k s e hs hfailed => ?_, ?_⟩
  · obtain ⟨hrun, hlocked⟩ := (hfirst.stages hnodup hs).ended hfailed
    exact ⟨hunharmed e s.store hrun, hlocked⟩
  · have hlast := getLast?_stages first released
    have hplace := hlast
    rw [List.getLast?_eq_getElem?, length_stages, Nat.add_sub_cancel] at hplace
    have hdone := hfirst.stages hnodup hplace
    rw [List.drop_length] at hdone
    exact ⟨_, hlast, hdone.last.1, hdone.last.2.2⟩

/-- Two things to do. -/
def pair : Catalog where
  projects := [⟨⟨1#128⟩, "Home", ⟨1⟩⟩]
  tasks := [⟨⟨2#128⟩, "Sweep", ⟨1#128⟩, none, .pending, 0, ⟨2⟩, ⟨2⟩⟩,
    ⟨⟨3#128⟩, "Cook", ⟨1#128⟩, none, .pending, 1, ⟨3⟩, ⟨3⟩⟩]

/-- The store takes no new places, after the move has waited for the home: nothing has moved, and
the home is free. -/
theorem failed_unharmed_pair :
    let op := Operation.reorder ⟨3#128⟩ 0
    let p := Plan.inject (some ⟨.setOrders, 1, .overflow⟩) (op.plan ⟨⟨4⟩, ⟨4#128⟩⟩)
    let first := started pair .empty [⟨1#128⟩] [(⟨4⟩, p)]
    ¬ op.IsCascade ∧ (Lock.Registry.empty : Lock.Registry Party).Idle ∧
      ([⟨1#128⟩] : List Uuid).Nodup ∧ first.view [⟨1#128⟩] = ⟨[false], 1, [true]⟩ ∧
      ∃ s e, (stages first [⟨1#128⟩])[1]? = some s ∧ s.results = [some (.error e)] ∧
        s.store = pair ∧ ∀ q, s.locks.isLocked q = true ↔ q ∈ ([] : List Uuid) := by
  intro op p first
  have hop : ¬ op.IsCascade := id
  have hidle : (Lock.Registry.empty : Lock.Registry Party).Idle := ⟨rfl, rfl, rfl⟩
  have hheld : ([⟨1#128⟩] : List Uuid).Nodup := List.nodup_singleton _
  obtain ⟨hfailed, last, hlast, hresults, -⟩ := failed_unharmed hop ⟨⟨4⟩, ⟨4#128⟩⟩
    (some ⟨.setOrders, 1, .overflow⟩) pair hidle hheld (.refl _)
  -- the third request is the write
  let made := (Plan.alone (op.plan ⟨⟨4⟩, ⟨4#128⟩⟩)).requests ⟨4⟩ pair
  have hmade : made = made.take 3 ++ (.setOrders [(⟨3#128⟩, 0), (⟨2#128⟩, 1)], pair) :: [] := rfl
  have hstrikes : (⟨.setOrders, 1, .overflow⟩ : Fault).Strikes (made.take 3)
      (.setOrders [(⟨3#128⟩, 0), (⟨2#128⟩, 1)]) pair := by constructor <;> decide
  rcases Operation.struck_at ⟨⟨4⟩, ⟨4#128⟩⟩ op pair hmade hstrikes with
    ⟨⟨⟨id, hid⟩, -⟩, -⟩ | ⟨-, e, hstruck, -⟩
  · exact nomatch (hid : Operation.reorder ⟨3#128⟩ 0 = .delete id)
  have hfails : last.results = [some (.error e)] :=
    hresults.trans (congrArg (fun r => [some r.1]) hstruck)
  have hwaits : first.view [⟨1#128⟩] = ⟨[false], 1, [true]⟩ := by decide +kernel
  exact ⟨hop, hidle, hheld, hwaits, last, e, hlast, hfails, hfailed 1 last e hlast hfails⟩

end Agenda.Scene
