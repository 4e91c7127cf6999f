import Agenda.Proofs.Concurrent.Deferred
import Agenda.Proofs.Concurrent.Waiting
import Agenda.Proofs.History.Basic
import Mathlib.Data.List.Forall2

/-!
# Concurrent operations are serializable

Operations that are launched side by side on records in memory, while outsiders hold some projects,
lead to what the same operations lead to one after another: first those that did not wait, in the
order of their launch, then for each project that is given back those that waited for it, in the
order in which they began to wait (`serializable`).  Once all projects are given back, every
operation has ended and no lock is left.

`Scene.Serial ran s` says that the operations at the places `ran` have ended, with the store and
the results of the serial run in this order; `Scene.Standing` adds that the locks stand for the
outsiders and for those that wait.  Both are kept when an operation is launched (`Standing.launch`)
and when those that wait for a project get their turn (`Standing.release`).  What a launch can lead
to is the same for all programs (`Scene.Launched`).  An operation that waited was prepared with
other records than it is carried out with, which by `Operation.deferrable` makes no difference but
for the words of one failure.
-/

namespace Agenda

/-- The operations of a history at some places. -/
def History.inOrder (ops : History) (order : List Nat) : History :=
  order.filterMap (ops[·]?)

namespace Scene

open History Program

/-- How an operation's result compares with its result when it has its turn alone: it is the same,
or that of a late operation if it waited. -/
def Faithful (ops : History) (waited : Nat → Prop) (i : Nat)
    (result timely : Except Failure Answer) : Prop :=
  result = timely ∨
    waited i ∧ ∃ on op, ops[i]? = some (on, op) ∧ Late op.target result timely

/-- Some operations have ended as if they had been carried out one after another; the others wait,
each with a plan of its own. -/
structure Serial (c : Catalog) (ops : History) (waited : Nat → Prop) (ran : List Nat)
    (s : Scene Catalog Answer) : Prop where
  /-- The store is that of the serial run. -/
  store : s.store = after inMemory c (ops.inOrder ran)
  /-- The results are those of the serial run. -/
  results : List.Forall₂
    (fun i x => ∃ r, s.jobs[i]? = some (.finished r) ∧ Faithful ops waited i r x.1)
    ran (trace inMemory c (ops.inOrder ran))
  /-- Nothing is carried out twice. -/
  nodup : ran.Nodup
  /-- Nothing else has ended. -/
  mem_ran : ∀ i, i ∈ ran ↔ i ∈ ended s.jobs
  /-- An operation that waits was prepared on its occasion. -/
  prepared : ∀ (i : Nat) now project body, s.jobs[i]? = some (.waiting now project body) →
    ∃ on op, ∃ c' : Catalog, ops[i]? = some (on, op) ∧ now = on.now ∧
      (op.plan on).outcome on.now c' = (.ok (.exclusive project body), c')

variable {c : Catalog} {ops : History} {waited : Nat → Prop} {ran : List Nat}
  {s : Scene Catalog Answer} {on : Occasion} {op : Operation}

namespace Serial

/-- Before anything is launched. -/
theorem nil (hstore : s.store = c) (hs : s.jobs = []) : Serial c ops waited [] s where
  store := hstore
  results := .nil
  nodup := .nil
  mem_ran i := by simp [hs, mem_ended]
  prepared i now project body hi := by
    rw [hs] at hi
    cases hi

/-- **One more operation has ended.** -/
theorem finish (h : Serial c ops waited ran s) {s' : Scene Catalog Answer} {i : Nat}
    {r : Except Failure Answer} (hop : ops[i]? = some (on, op)) (hi : i ∉ ran)
    (hstore : s'.store = (inMemory on op s.store).2) (hjob : s'.jobs[i]? = some (.finished r))
    (hothers : ∀ k, k ≠ i → s'.jobs[k]? = s.jobs[k]?)
    (hr : Faithful ops waited i r (inMemory on op s.store).1) :
    Serial c ops waited (ran ++ [i]) s' := by
  have horder : ops.inOrder (ran ++ [i]) = ops.inOrder ran ++ [(on, op)] := by
    simp [inOrder, List.filterMap_append, hop]
  constructor
  case store =>
    rw [hstore, horder, after_append, ← h.store]
    rfl
  case results =>
    -- the serial run goes on from the store as it is now
    rw [horder, trace_append, ← h.store]
    have hne : ∀ k ∈ ran, k ≠ i := fun k hk he => hi (he ▸ hk)
    refine List.rel_append ?_ (.cons ⟨r, hjob, hr⟩ .nil)
    refine ((List.forall₂_and_left _ _).2 ⟨hne, h.results⟩).imp ?_
    rintro k x ⟨hk, rk, hrk, hfaithful⟩
    exact ⟨rk, by rw [hothers k hk, hrk], hfaithful⟩
  case nodup =>
    refine List.nodup_append.2 ⟨h.nodup, List.nodup_singleton i, ?_⟩
    rintro k hk _ hk' rfl
    exact hi (List.mem_singleton.1 hk' ▸ hk)
  case mem_ran =>
    intro k
    rw [List.mem_append, List.mem_singleton, h.mem_ran, mem_ended, mem_ended]
    by_cases hk : k = i
    · subst hk
      exact ⟨fun _ => ⟨r, hjob⟩, fun _ => .inr rfl⟩
    · rw [hothers k hk]
      exact ⟨fun hmem => hmem.resolve_right hk, .inl⟩
  case prepared =>
    intro k now project body hk
    by_cases hki : k = i
    · subst hki
      rw [hjob] at hk
      cases hk
    · rw [hothers k hki] at hk
      exact h.prepared k now project body hk

/-- **One more operation has ended at once.** -/
theorem append_finished (h : Serial c ops waited ran s) {s' : Scene Catalog Answer}
    (hop : ops[s.jobs.length]? = some (on, op)) (hstore : s'.store = (inMemory on op s.store).2)
    (hjobs : s'.jobs = s.jobs ++ [.finished (inMemory on op s.store).1]) :
    Serial c ops waited (ran ++ [s.jobs.length]) s' := by
  refine h.finish hop ?_ hstore ?_ ?_ (.inl rfl)
  · -- its place is new
    intro hran
    obtain ⟨r, hr⟩ := mem_ended.1 ((h.mem_ran _).1 hran)
    exact Nat.lt_irrefl _ (List.getElem?_eq_some_iff.1 hr).1
  · rw [hjobs, List.getElem?_append_right (Nat.le_refl _), Nat.sub_self, List.getElem?_cons_zero]
  · intro k hk
    rw [hjobs]
    rcases Nat.lt_or_gt_of_ne hk with hlt | hgt
    · exact List.getElem?_append_left hlt
    · rw [List.getElem?_eq_none (Nat.le_of_lt hgt), List.getElem?_eq_none]
      rw [List.length_append, List.length_singleton]
      exact hgt

/-- **One more operation waits.** -/
theorem append_waiting (h : Serial c ops waited ran s) {s' : Scene Catalog Answer} {project : Uuid}
    {body : Program Answer} {c' : Catalog} (hop : ops[s.jobs.length]? = some (on, op))
    (hplan : (op.plan on).outcome on.now s.store = (.ok (.exclusive project body), c'))
    (hstore : s'.store = s.store) (hjobs : s'.jobs = s.jobs ++ [.waiting on.now project body]) :
    Serial c ops waited ran s' := by
  -- the preparation has written nothing
  obtain rfl := (Operation.deferrable on op _ _ s.store _ _ hplan).1
  constructor
  case store => rw [hstore, h.store]
  case results =>
    refine h.results.imp ?_
    rintro k x ⟨r, hr, hfaithful⟩
    refine ⟨r, ?_, hfaithful⟩
    rw [hjobs, List.getElem?_append_left (List.getElem?_eq_some_iff.1 hr).1, hr]
  case nodup => exact h.nodup
  case mem_ran =>
    intro k
    rw [h.mem_ran, hjobs, ended_append_waiting]
  case prepared =>
    intro k now project' body' hk
    rw [hjobs] at hk
    rcases Nat.lt_or_ge k s.jobs.length with hlt | hge
    · rw [List.getElem?_append_left hlt] at hk
      exact h.prepared k now project' body' hk
    · rw [List.getElem?_append_right hge, List.getElem?_singleton] at hk
      split at hk
      · cases hk
        have hk' : k = s.jobs.length := by omega
        exact ⟨on, op, s.store, hk' ▸ hop, rfl, hplan⟩
      · cases hk

/-- **The turn of an operation that waited.**  It leads to what it would have led to if it had been
launched only then. -/
theorem set_finished (h : Serial c ops waited ran s) {s' : Scene Catalog Answer} {i : Nat}
    {now : Instant} {project : Uuid} {body : Program Answer}
    (hjob : s.jobs[i]? = some (.waiting now project body)) (hi : waited i)
    (hstore : s'.store = (body.outcome now s.store).2)
    (hjobs : s'.jobs = s.jobs.set i (.finished (body.outcome now s.store).1)) :
    Serial c ops waited (ran ++ [i]) s' := by
  obtain ⟨on, op, c', hop, rfl, hplan⟩ := h.prepared i now project body hjob
  -- it was prepared with the catalog `c'`, and is carried out with the store of now
  obtain ⟨-, hstore', hresult⟩ := Operation.deferrable on op _ _ s.store _ _ hplan
  have hlt : i < s.jobs.length := (List.getElem?_eq_some_iff.1 hjob).1
  refine h.finish hop ?_ (hstore.trans hstore') ?_ ?_ (.inr ⟨hi, on, op, hop, hresult⟩)
  · intro hran
    obtain ⟨r, hr⟩ := mem_ended.1 ((h.mem_ran i).1 hran)
    rw [hjob] at hr
    cases hr
  · rw [hjobs, List.getElem?_set_self hlt]
  · intro k hk
    rw [hjobs, List.getElem?_set_ne (Ne.symm hk)]

/-- The locks make no difference. -/
theorem withLocks (h : Serial c ops waited ran s) (locks : Lock.Registry Party) :
    Serial c ops waited ran { s with locks := locks } :=
  ⟨h.store, h.results, h.nodup, h.mem_ran, h.prepared⟩

/-- More of them may have waited. -/
theorem mono (h : Serial c ops waited ran s) {waited' : Nat → Prop}
    (hwaited : ∀ i, waited i → waited' i) : Serial c ops waited' ran s where
  store := h.store
  results := h.results.imp fun i _ ⟨r, hr, hfaithful⟩ =>
    ⟨r, hr, hfaithful.imp_right fun hlate => ⟨hwaited i hlate.1, hlate.2⟩⟩
  nodup := h.nodup
  mem_ran := h.mem_ran
  prepared := h.prepared

end Serial

/-! ### The steps of a scene -/

/-- A party gives its project back and nobody waits for it. -/
theorem giveBack_none {u : Party} (n : Nat) (h : (s.locks.leave u).2 = none) :
    giveBack (n + 1) u s = { s with locks := (s.locks.leave u).1 } := by
  rw [giveBack]
  simp only [h]

/-- The last one that uses a project leaves nothing behind. -/
theorem giveBack_last {held : List Uuid} {p : Uuid} {u : Party} (n : Nat) (hp : p ∉ held)
    (hwaiting : waitingFor s.jobs p = [])
    (hlocks : s.locks.Shows (Function.update (queue held s.jobs) p [u])) :
    ∃ locks, giveBack (n + 1) u s = { s with locks := locks } ∧
      locks.Shows (queue held s.jobs) := by
  obtain ⟨hleft, hnext⟩ := hlocks.leave_first
  have hqueue : queue held s.jobs p = [] := by
    rw [queue_of_not_mem hp, hwaiting, List.map_nil]
  rw [← hqueue, Function.update_eq_self] at hleft
  exact ⟨_, giveBack_none n hnext, hleft⟩

/-- A party gives its project back and the first one that waits for it has its turn. -/
theorem giveBack_some {u : Party} {i : Nat} {now : Instant} {project : Uuid}
    {body : Program Answer} (n : Nat) (h : (s.locks.leave u).2 = some (.operation i))
    (hjob : s.jobs[i]? = some (.waiting now project body)) :
    ∃ log, giveBack (n + 1) u s = giveBack n (.operation i)
      ⟨(body.outcome now s.store).2, (s.locks.leave u).1,
        s.jobs.set i (.finished (body.outcome now s.store).1), log⟩ := by
  rw [giveBack]
  simp only [h, hjob]
  exact ⟨_, rfl⟩

/-- **The turns of those that wait.**  When a party gives a project back that no outsider holds, all
that wait for the project are carried out in their order. -/
theorem giveBack_serial {held : List Uuid} {p : Uuid} (hp : p ∉ held) (W : List Nat) (n : Nat)
    (hn : W.length ≤ n) (u : Party) (ran : List Nat) (s : Scene Catalog Answer)
    (hwaiting : waitingFor s.jobs p = W) (hwaited : ∀ i ∈ W, waited i)
    (h : Serial c ops waited ran s)
    (hlocks : s.locks.Shows (Function.update (queue held s.jobs) p (u :: W.map .operation))) :
    Serial c ops waited (ran ++ W) (giveBack (n + 1) u s) ∧
      (giveBack (n + 1) u s).locks.Shows (queue held (giveBack (n + 1) u s).jobs) ∧
      (∀ p', waitingFor (giveBack (n + 1) u s).jobs p' =
        if p' = p then [] else waitingFor s.jobs p') ∧
      (giveBack (n + 1) u s).jobs.length = s.jobs.length := by
  -- each one that has had its turn is the party that gives the project back to the next
  induction W generalizing n u ran s with
  | nil =>
    obtain ⟨locks, hstep, hshows⟩ := giveBack_last n hp hwaiting hlocks
    rw [hstep, List.append_nil]
    refine ⟨h.withLocks locks, hshows, fun p' => ?_, rfl⟩
    split
    · rename_i hp'
      rw [hp', hwaiting]
    · rfl
  | cons i W ih =>
    obtain ⟨hleft, hnext⟩ := hlocks.leave_first
    have hi : i ∈ waitingFor s.jobs p := hwaiting ▸ List.mem_cons_self
    obtain ⟨now, body, hjob⟩ := mem_waitingFor.1 hi
    obtain ⟨log, hstep⟩ := giveBack_some n hnext hjob
    obtain ⟨n, rfl⟩ : ∃ m, n = m + 1 := ⟨n - 1, by simp at hn; omega⟩
    generalize hs' : (⟨(body.outcome now s.store).2, (s.locks.leave u).1,
      s.jobs.set i (.finished (body.outcome now s.store).1), log⟩ : Scene Catalog Answer) = s'
      at hstep
    have hset := waitingFor_set_finished hwaiting (body.outcome now s.store).1
    have hjobs : s'.jobs = s.jobs.set i (.finished (body.outcome now s.store).1) := by rw [← hs']
    have hserial : Serial c ops waited (ran ++ [i]) s' :=
      h.set_finished hjob (hwaited i List.mem_cons_self) (by rw [← hs']) hjobs
    have hwaiting' : waitingFor s'.jobs p = W := by rw [hjobs, hset, if_pos rfl]
    have hothers (p' : Uuid) (hp' : p' ≠ p) : waitingFor s'.jobs p' = waitingFor s.jobs p' := by
      rw [hjobs, hset, if_neg hp']
    have hlocks' : s'.locks.Shows
        (Function.update (queue held s'.jobs) p (.operation i :: W.map .operation)) := by
      rw [update_queue hothers, ← hs']
      exact hleft
    obtain ⟨hdone, hshows, hnone, hlength⟩ := ih n (by simpa using hn) (.operation i) (ran ++ [i])
      s' hwaiting' (fun k hk => hwaited k (List.mem_cons_of_mem _ hk)) hserial hlocks'
    rw [hstep]
    refine ⟨?_, hshows, fun p' => ?_, ?_⟩
    · rwa [List.append_assoc] at hdone
    · rw [hnone, hjobs, hset]
      split <;> rfl
    · rw [hlength, hjobs, List.length_set]

/-! ### Launching -/

theorem exec_eq {β : Type} (s : Scene Catalog Answer) (now : Instant) (p : Program β) :
    s.exec now p = ((p.outcome now s.store).1,
      { s with store := (p.outcome now s.store).2, log := s.log ++ (p.run now s.store).log }) :=
  rfl

section Launch

variable {now : Instant} {p : Program (Plan Answer)} {project : Uuid} {body : Program Answer}
  {c' : Catalog} {held : List Uuid}

/-- A program that fails is an operation that has ended. -/
theorem launch_error {e : Failure} (h : p.outcome now s.store = (.error e, c')) :
    ∃ log, s.launch now p = ⟨c', s.locks, s.jobs ++ [.finished (.error e)], log⟩ := by
  rw [launch, exec_eq, h]
  exact ⟨_, rfl⟩

/-- So is one that has its answer at once. -/
theorem launch_settled {a : Answer} (h : p.outcome now s.store = (.ok (.settled a), c')) :
    ∃ log, s.launch now p = ⟨c', s.locks, s.jobs ++ [.finished (.ok a)], log⟩ := by
  rw [launch, exec_eq, h]
  exact ⟨_, rfl⟩

/-- An operation whose project is free has it at once, and gives it back. -/
theorem launch_entered (h : p.outcome now s.store = (.ok (.exclusive project body), c'))
    (hentered : (s.locks.arrive (.operation s.jobs.length) project).2 = true) :
    ∃ log, s.launch now p = giveBack (s.jobs.length + 1) (.operation s.jobs.length)
      ⟨(body.outcome now c').2, (s.locks.arrive (.operation s.jobs.length) project).1,
        s.jobs ++ [.finished (body.outcome now c').1], log⟩ := by
  rw [launch, exec_eq, h]
  dsimp only
  rw [hentered, if_pos rfl]
  exact ⟨_, rfl⟩

/-- An operation whose project is in use waits. -/
theorem launch_waiting (h : p.outcome now s.store = (.ok (.exclusive project body), c'))
    (hentered : (s.locks.arrive (.operation s.jobs.length) project).2 = false) :
    ∃ log, s.launch now p = ⟨c', (s.locks.arrive (.operation s.jobs.length) project).1,
      s.jobs ++ [.waiting now project body], log⟩ := by
  rw [launch, exec_eq, h]
  dsimp only
  rw [hentered, if_neg Bool.false_ne_true]
  exact ⟨_, rfl⟩

/-- All that a launch can lead to while outsiders hold some projects: the program comes to its end,
as it does alone, or it waits for a project that an outsider holds. -/
inductive Launched (held : List Uuid) (now : Instant) (p : Program (Plan Answer))
    (s : Scene Catalog Answer) : Scene Catalog Answer → Prop
  | finished {r : Except Failure Answer} {c' : Catalog} {locks : Lock.Registry Party}
    (hrun : (Plan.alone p).outcome now s.store = (r, c'))
    (hlocks : locks.Shows (queue held (s.jobs ++ [.finished r]))) (log : List Log.Record) :
    Launched held now p s ⟨c', locks, s.jobs ++ [.finished r], log⟩
  | waiting {project : Uuid} {body : Program Answer} {c' : Catalog} {locks : Lock.Registry Party}
    (hplan : p.outcome now s.store = (.ok (.exclusive project body), c')) (hheld : project ∈ held)
    (hlocks : locks.Shows (queue held (s.jobs ++ [.waiting now project body])))
    (log : List Log.Record) :
    Launched held now p s ⟨c', locks, s.jobs ++ [.waiting now project body], log⟩

/-- **One launch**, while nobody waits for a project that is not held. -/
theorem launched (now : Instant) (p : Program (Plan Answer))
    (hlocks : s.locks.Shows (queue held s.jobs))
    (hfree : ∀ q, q ∉ held → waitingFor s.jobs q = []) :
    Launched held now p s (s.launch now p) := by
  have halone : (Plan.alone p).outcome now s.store = _ := Plan.outcome_alone p
  have hshows (r : Except Failure Answer) :
      s.locks.Shows (queue held (s.jobs ++ [.finished r])) := by
    rwa [queue_append_finished]
  rcases hplan : p.outcome now s.store with ⟨e | a | ⟨project, body⟩, c'⟩
  · -- the program fails before it has a project
    obtain ⟨log, hlaunch⟩ := launch_error hplan
    rw [hplan] at halone
    rw [hlaunch]
    exact .finished halone (hshows _) log
  · -- the program needs no project
    obtain ⟨log, hlaunch⟩ := launch_settled hplan
    rw [hplan] at halone
    rw [hlaunch]
    exact .finished halone (hshows _) log
  · rw [hplan] at halone
    obtain ⟨harrived, hentered⟩ := hlocks.arrive (operation_not_mem_queue held s.jobs) project
    by_cases hheld : project ∈ held
    · rw [queue_of_mem hheld] at hentered
      obtain ⟨log, hlaunch⟩ := launch_waiting hplan hentered
      rw [hlaunch]
      refine .waiting hplan hheld ?_ log
      rwa [queue_append_waiting]
    · -- the program has its project at once, and leaves it to nobody
      rw [queue_of_not_mem hheld, hfree project hheld] at hentered harrived
      obtain ⟨log, hlaunch⟩ := launch_entered hplan hentered
      rw [hlaunch]
      rw [List.map_nil, List.nil_append,
        ← queue_append_finished held s.jobs (body.outcome now c').1] at harrived
      obtain ⟨locks, hstep, hleft⟩ := giveBack_last s.jobs.length hheld
        (s := ⟨(body.outcome now c').2, _, s.jobs ++ [.finished (body.outcome now c').1], log⟩)
        (by rw [waitingFor_append_finished, hfree project hheld]) harrived
      rw [hstep]
      exact .finished halone hleft log

end Launch

/-- A scene between two steps: outsiders hold some projects, and nobody waits for any other. -/
structure Standing (c : Catalog) (ops : History) (waited : Nat → Prop) (held : List Uuid)
    (ran : List Nat) (s : Scene Catalog Answer) : Prop where
  serial : Serial c ops waited ran s
  locks : s.locks.Shows (queue held s.jobs)
  free : ∀ p, p ∉ held → waitingFor s.jobs p = []

namespace Standing

variable {held : List Uuid}

/-- It does not matter in which order the outsiders have come. -/
theorem perm (h : Standing c ops waited held ran s) {held' : List Uuid} (hp : held'.Perm held) :
    Standing c ops waited held' ran s where
  serial := h.serial
  locks := by
    rw [queue_perm hp]
    exact h.locks
  free p hp' := h.free p fun hmem => hp' (hp.mem_iff.2 hmem)

/-- More of them may have waited. -/
theorem mono (h : Standing c ops waited held ran s) {waited' : Nat → Prop}
    (hwaited : ∀ i, waited i → waited' i) : Standing c ops waited' held ran s :=
  ⟨h.serial.mono hwaited, h.locks, h.free⟩

/-- **One launch.**  The operation ends, or it waits for a project that an outsider holds. -/
theorem launch (h : Standing c ops waited held (ended s.jobs) s)
    (hop : ops[s.jobs.length]? = some (on, op)) :
    Standing c ops waited held (ended (s.launch on.now (op.plan on)).jobs)
        (s.launch on.now (op.plan on)) ∧
      (s.launch on.now (op.plan on)).jobs.length = s.jobs.length + 1 := by
  have hlaunched := launched on.now (op.plan on) h.locks h.free
  generalize s.launch on.now (op.plan on) = s' at hlaunched ⊢
  cases hlaunched with
  | @finished r c' locks hrun hlocks log =>
    have hmemory : inMemory on op s.store = (r, c') := hrun
    refine ⟨⟨?_, hlocks, fun p hp => ?_⟩, List.length_append⟩
    · rw [ended_append_finished]
      exact h.serial.append_finished hop (by rw [hmemory]) (by rw [hmemory])
    · rw [waitingFor_append_finished, h.free p hp]
  | @waiting project body c' locks hplan hheld hlocks log =>
    obtain rfl := (Operation.deferrable on op _ _ s.store _ _ hplan).1
    refine ⟨⟨?_, hlocks, fun p hp => ?_⟩, List.length_append⟩
    · rw [ended_append_waiting]
      exact h.serial.append_waiting hop hplan rfl rfl
    · have hne : project ≠ p := fun he => hp (he ▸ hheld)
      rw [waitingFor_append_waiting, if_neg hne, List.append_nil, h.free p hp]

/-- **All launches.** -/
theorem launches (h : Standing c ops waited held (ended s.jobs) s) (rest : History) (n : Nat)
    (hrest : ops.drop n = rest) (hn : s.jobs.length = n) :
    ∃ s', (rest.map fun (on, op) => (on.now, op.plan on)).foldl
        (fun s (now, p) => s.launch now p) s = s' ∧
      Standing c ops waited held (ended s'.jobs) s' ∧ s'.jobs.length = n + rest.length := by
  induction rest generalizing n s with
  | nil => exact ⟨s, rfl, h, hn⟩
  | cons o rest ih =>
    obtain ⟨on, op⟩ := o
    have hop : ops[s.jobs.length]? = some (on, op) := by
      rw [hn, ← List.head?_drop, hrest, List.head?_cons]
    obtain ⟨hnext, hlength⟩ := h.launch hop
    have hdrop : ops.drop (n + 1) = rest := by
      rw [← List.tail_drop, hrest, List.tail_cons]
    obtain ⟨s', hfold, hstanding, hlength'⟩ := ih hnext (n + 1) hdrop (by rw [hlength, hn])
    refine ⟨s', hfold, hstanding, ?_⟩
    rw [hlength', List.length_cons]
    omega

/-- **A project is given back.**  Those that waited for it are carried out, and the others still
wait. -/
theorem release {p : Uuid} (h : Standing c ops waited (p :: held) ran s) (hp : p ∉ held)
    (hwaited : ∀ i ∈ waitingFor s.jobs p, waited i) :
    Standing c ops waited held (ran ++ waitingFor s.jobs p) (s.release p) ∧
      (∀ p', p' ≠ p → waitingFor (s.release p).jobs p' = waitingFor s.jobs p') ∧
      (s.release p).jobs.length = s.jobs.length := by
  have hlocks := h.locks
  rw [queue_cons_held] at hlocks
  obtain ⟨hserial, hshows, hwaiting, hlength⟩ := giveBack_serial hp (waitingFor s.jobs p)
    s.jobs.length (length_placesOf_le _ _) (.outsider p) ran s rfl hwaited h.serial hlocks
  refine ⟨⟨hserial, hshows, fun p' hp' => ?_⟩, fun p' hp' => ?_, hlength⟩
  · show waitingFor (giveBack (s.jobs.length + 1) (.outsider p) s).jobs p' = []
    rw [hwaiting]
    split
    · rfl
    · rename_i hne
      exact h.free p' (List.not_mem_cons_of_ne_of_not_mem hne hp')
  · show waitingFor (giveBack (s.jobs.length + 1) (.outsider p) s).jobs p' = _
    rw [hwaiting, if_neg hp']

/-- **All projects are given back.** -/
theorem releases (h : Standing c ops waited held ran s) (hheld : held.Nodup)
    (hwaited : ∀ p ∈ held, ∀ i ∈ waitingFor s.jobs p, waited i) :
    Standing c ops waited [] (ran ++ held.flatMap (waitingFor s.jobs))
        (held.foldl Scene.release s) ∧
      (held.foldl Scene.release s).jobs.length = s.jobs.length := by
  induction held generalizing ran s with
  | nil => exact ⟨by rwa [List.flatMap_nil, List.append_nil], rfl⟩
  | cons p held ih =>
    obtain ⟨hp, hrest⟩ := List.nodup_cons.1 hheld
    obtain ⟨hnext, hothers, hlength⟩ := h.release hp (hwaited p List.mem_cons_self)
    have hsame (p' : Uuid) (hp' : p' ∈ held) :
        waitingFor (s.release p).jobs p' = waitingFor s.jobs p' :=
      hothers p' fun he => hp (he ▸ hp')
    obtain ⟨hlast, hlength'⟩ := ih hnext hrest fun p' hp' i hi =>
      hwaited p' (List.mem_cons_of_mem _ hp') i (hsame p' hp' ▸ hi)
    rw [List.flatMap_congr hsame, List.append_assoc, ← List.flatMap_cons] at hlast
    exact ⟨hlast, hlength'.trans hlength⟩

/-- At the end nobody waits: all operations have ended, each once, and no lock is left. -/
theorem last (h : Standing c ops waited [] ran s) :
    ran.Perm (List.range s.jobs.length) ∧ s.locks.size = 0 := by
  have hnone (p : Uuid) : waitingFor s.jobs p = [] := h.free p List.not_mem_nil
  constructor
  · rw [List.perm_ext_iff_of_nodup h.serial.nodup List.nodup_range]
    intro i
    rw [h.serial.mem_ran, List.mem_range, mem_ended]
    constructor
    · rintro ⟨r, hr⟩
      exact (List.getElem?_eq_some_iff.1 hr).1
    · intro hi
      cases hjob : s.jobs[i] with
      | finished r => exact ⟨r, List.getElem?_eq_some_iff.2 ⟨hi, hjob⟩⟩
      | waiting now project body =>
        have hmem : i ∈ waitingFor s.jobs project :=
          mem_waitingFor.2 ⟨now, body, List.getElem?_eq_some_iff.2 ⟨hi, hjob⟩⟩
        rw [hnone] at hmem
        cases hmem
  · apply h.locks.size_eq_zero
    intro p
    rw [queue_of_not_mem List.not_mem_nil, hnone, List.map_nil]

end Standing

/-! ### The whole run -/

/-- Outsiders take projects that nobody uses. -/
theorem take_eq (projects held : List Uuid) (hnodup : (held ++ projects).Nodup)
    (hlocks : s.locks.Shows (queue held s.jobs)) (hfree : ∀ p, waitingFor s.jobs p = []) :
    ∃ locks log, s.take projects = ⟨s.store, locks, s.jobs, log⟩ ∧
      locks.Shows (queue (held ++ projects) s.jobs) := by
  induction projects generalizing held s with
  | nil => exact ⟨s.locks, s.log, rfl, by rwa [List.append_nil]⟩
  | cons p projects ih =>
    have hp : p ∉ held := fun hmem =>
      (List.nodup_append.1 hnodup).2.2 p hmem p List.mem_cons_self rfl
    have harrive := (hlocks.arrive (u := .outsider p)
      (fun p' hmem => hp (outsider_mem_queue.1 hmem).2) p).1
    rw [← queue_append_held (hfree p) hp] at harrive
    rw [List.append_cons] at hnodup ⊢
    exact ih (held ++ [p]) hnodup harrive hfree

/-- The scene after all projects are given back. -/
theorem getLast?_stages (first : Scene Catalog Answer) (held : List Uuid) :
    (stages first held).getLast? = some (held.foldl release first) := by
  induction held generalizing first with
  | nil => rfl
  | cons p held ih =>
    rw [stages, List.getLast?_cons, ih, Option.getD_some, List.foldl_cons]

/-- **Serializability.**  Operations are launched side by side while outsiders hold some projects,
and the projects are given back one after another.  At the end every operation has a result and no
lock is left, and store and results are those of the same operations one after another: first those
that did not wait, then for each project that is given back those that waited for it.  Only a late
operation may tell more about its failure. -/
theorem serializable (c : Catalog) {locks : Lock.Registry Party} (hidle : locks.Idle)
    {held released : List Uuid} (hheld : held.Nodup) (hreleased : released.Perm held)
    (ops : History) :
    let first := started c locks held (ops.map fun (on, op) => (on.now, op.plan on))
    let waiting := released.flatMap (waitingFor first.jobs)
    let order := ended first.jobs ++ waiting
    ∃ last, (stages first released).getLast? = some last ∧
      order.Perm (List.range ops.length) ∧
      last.locks.size = 0 ∧
      last.store = after inMemory c (ops.inOrder order) ∧
      List.Forall₂
        (fun i x => ∃ r, last.results[i]? = some (some r) ∧ Faithful ops (· ∈ waiting) i r x.1)
        order (trace inMemory c (ops.inOrder order)) := by
  intro first waiting order
  -- the projects are taken
  obtain ⟨locks', log, htake, hlocks⟩ := take_eq (s := ⟨c, locks, [], []⟩) held []
    (by rwa [List.nil_append]) hidle.shows fun _ => rfl
  rw [List.nil_append] at hlocks
  have hbegin : Standing c ops (fun _ => False) held [] ⟨c, locks', [], log⟩ :=
    ⟨.nil rfl rfl, hlocks, fun _ _ => rfl⟩
  -- the operations are launched
  obtain ⟨s, hfirst, hlaunched, hlength⟩ :=
    Standing.launches (s := ⟨c, locks', [], log⟩) hbegin ops 0 rfl rfl
  obtain rfl : first = s := by
    rw [← hfirst, ← htake]
    rfl
  -- the projects are given back
  have hwaited : ∀ p ∈ released, ∀ i ∈ waitingFor first.jobs p, i ∈ waiting :=
    fun p hp i hi => List.mem_flatMap.2 ⟨p, hp, hi⟩
  obtain ⟨hdone, hlength'⟩ :=
    ((hlaunched.mono fun _ => False.elim).perm hreleased).releases (hreleased.nodup_iff.2 hheld)
      hwaited
  obtain ⟨hperm, hsize⟩ := hdone.last
  rw [hlength', hlength, Nat.zero_add] at hperm
  refine ⟨_, getLast?_stages first released, hperm, hsize, hdone.serial.store, ?_⟩
  refine hdone.serial.results.imp ?_
  rintro i x ⟨r, hr, hfaithful⟩
  exact ⟨r, by rw [results, List.getElem?_map, hr]; rfl, hfaithful⟩

/-- A home with a task and another one below it, and a project with one task. -/
def household : History :=
  [(⟨⟨0⟩, ⟨1#128⟩⟩, .createProject "Home"), (⟨⟨1⟩, ⟨2#128⟩⟩, .createProject "Work"),
    (⟨⟨2⟩, ⟨3#128⟩⟩, .createTask "Sweep" ⟨1#128⟩ none),
    (⟨⟨3⟩, ⟨4#128⟩⟩, .createTask "Mop" ⟨1#128⟩ (some ⟨3#128⟩)),
    (⟨⟨4⟩, ⟨5#128⟩⟩, .createTask "Write" ⟨2#128⟩ none)]

/-- Everybody wants something at once, and the lower task is gone before it can be completed. -/
def rush : History :=
  [(⟨⟨5⟩, ⟨6#128⟩⟩, .delete ⟨3#128⟩), (⟨⟨5⟩, ⟨7#128⟩⟩, .rename ⟨5#128⟩ "Draft"),
    (⟨⟨5⟩, ⟨8#128⟩⟩, .complete ⟨5#128⟩), (⟨⟨5⟩, ⟨9#128⟩⟩, .complete ⟨4#128⟩)]

theorem serializable_rush :
    (Lock.Registry.empty : Lock.Registry Party).Idle ∧
      ([⟨1#128⟩, ⟨2#128⟩] : List Uuid).Nodup ∧
      ([⟨2#128⟩, ⟨1#128⟩] : List Uuid).Perm [⟨1#128⟩, ⟨2#128⟩] ∧
      let c := after inMemory .empty household
      let first := started c .empty [⟨1#128⟩, ⟨2#128⟩]
        (rush.map fun (on, op) => (on.now, op.plan on))
      let waiting := [⟨2#128⟩, ⟨1#128⟩].flatMap (waitingFor first.jobs)
      let order := ended first.jobs ++ waiting
      order = [1, 2, 0, 3] ∧
      ∃ last, (stages first [⟨2#128⟩, ⟨1#128⟩]).getLast? = some last ∧
        order.Perm (List.range rush.length) ∧
        last.locks.size = 0 ∧
        last.store = after inMemory c (rush.inOrder order) ∧
        List.Forall₂
          (fun i x => ∃ r, last.results[i]? = some (some r) ∧ Faithful rush (· ∈ waiting) i r x.1)
          order (trace inMemory c (rush.inOrder order)) :=
  ⟨⟨rfl, rfl, rfl⟩, by decide, by decide, by decide,
    serializable _ ⟨rfl, rfl, rfl⟩ (by decide) (by decide) rush⟩

end Scene

end Agenda
