import Agenda.Concurrent
import Agenda.Proofs.Lock.Queues

/-!
# Who waits for what

Operations are known by their places in the order in which they were launched.  In a scene, some of
them have ended (`Scene.ended`) and some wait for a project (`Scene.waitingFor`); as they are
launched one after another, the order of the places is also the order in which they began to wait.

`Scene.queue` is what the locks of a scene stand for: a project that an outsider has taken is
used by the outsider and by the operations that wait for it.
-/

namespace Agenda

/-- The operation waits for a project. -/
def Job.waitsFor {α : Type} (p : Uuid) : Job α → Bool
  | .finished _ => false
  | .waiting _ project _ => project = p

namespace Scene

variable {α : Type} {jobs : List (Job α)}

/-! ### Places -/

/-- The places of some of the operations. -/
def placesOf (f : Job α → Bool) (jobs : List (Job α)) : List Nat :=
  (List.range jobs.length).filter fun i => jobs[i]?.any f

/-- The places of the operations that have ended. -/
def ended (jobs : List (Job α)) : List Nat := placesOf Job.isDone jobs

/-- The places of the operations that wait for a project. -/
def waitingFor (jobs : List (Job α)) (p : Uuid) : List Nat := placesOf (Job.waitsFor p) jobs

theorem mem_placesOf {f : Job α → Bool} {i : Nat} :
    i ∈ placesOf f jobs ↔ ∃ j, jobs[i]? = some j ∧ f j = true := by
  rw [placesOf, List.mem_filter, List.mem_range, Option.any_eq_true]
  constructor
  · rintro ⟨-, j, hj, hf⟩
    exact ⟨j, hj, hf⟩
  · rintro ⟨j, hj, hf⟩
    exact ⟨(List.getElem?_eq_some_iff.1 hj).1, j, hj, hf⟩

theorem nodup_placesOf (f : Job α → Bool) (jobs : List (Job α)) : (placesOf f jobs).Nodup :=
  List.nodup_range.filter _

theorem length_placesOf_le (f : Job α → Bool) (jobs : List (Job α)) :
    (placesOf f jobs).length ≤ jobs.length := by
  have hle := List.length_filter_le (fun i => jobs[i]?.any f) (List.range jobs.length)
  rwa [List.length_range] at hle

/-- One more operation. -/
theorem placesOf_append (f : Job α → Bool) (jobs : List (Job α)) (j : Job α) :
    placesOf f (jobs ++ [j]) = placesOf f jobs ++ if f j then [jobs.length] else [] := by
  rw [placesOf, List.length_append, List.length_singleton, List.range_succ, List.filter_append]
  congr 1
  · apply List.filter_congr
    intro i hi
    rw [List.getElem?_append_left (List.mem_range.1 hi)]
  · rw [List.filter_singleton, List.getElem?_append_right (Nat.le_refl _), Nat.sub_self,
      List.getElem?_cons_zero, Option.any_some]
    cases f j <;> rfl

/-- An operation that is no longer one of them. -/
theorem placesOf_set {f : Job α → Bool} {i : Nat} {j : Job α} (hj : f j = false) :
    placesOf f (jobs.set i j) = (placesOf f jobs).erase i := by
  rw [(nodup_placesOf f jobs).erase_eq_filter, placesOf, placesOf, List.filter_filter,
    List.length_set]
  apply List.filter_congr
  intro k hk
  by_cases hki : k = i
  · subst hki
    rw [List.getElem?_set_self (List.mem_range.1 hk), Option.any_some, hj, bne_self_eq_false,
      Bool.false_and]
  · rw [List.getElem?_set_ne (Ne.symm hki), bne_iff_ne.2 hki, Bool.true_and]

theorem mem_ended {i : Nat} : i ∈ ended jobs ↔ ∃ r, jobs[i]? = some (.finished r) := by
  rw [ended, mem_placesOf]
  constructor
  · rintro ⟨j, hj, hdone⟩
    cases j with
    | finished r => exact ⟨r, hj⟩
    | waiting now project body => cases hdone
  · rintro ⟨r, hr⟩
    exact ⟨_, hr, rfl⟩

theorem mem_waitingFor {i : Nat} {p : Uuid} :
    i ∈ waitingFor jobs p ↔ ∃ now body, jobs[i]? = some (.waiting now p body) := by
  rw [waitingFor, mem_placesOf]
  constructor
  · rintro ⟨j, hj, hwaits⟩
    cases j with
    | finished r => cases hwaits
    | waiting now project body =>
      obtain rfl := of_decide_eq_true hwaits
      exact ⟨now, body, hj⟩
  · rintro ⟨now, body, hj⟩
    exact ⟨_, hj, decide_eq_true rfl⟩

/-- Nobody waits for two projects. -/
theorem project_eq_of_mem_waitingFor {i : Nat} {p p' : Uuid} (h : i ∈ waitingFor jobs p)
    (h' : i ∈ waitingFor jobs p') : p = p' := by
  obtain ⟨now, body, hj⟩ := mem_waitingFor.1 h
  obtain ⟨now', body', hj'⟩ := mem_waitingFor.1 h'
  rw [hj] at hj'
  cases hj'
  rfl

theorem waitingFor_append_finished (jobs : List (Job α)) (r : Except Failure α) (p : Uuid) :
    waitingFor (jobs ++ [.finished r]) p = waitingFor jobs p := by
  rw [waitingFor, placesOf_append]
  exact List.append_nil _

theorem waitingFor_append_waiting (jobs : List (Job α)) (now : Instant) (project : Uuid)
    (body : Program α) (p : Uuid) :
    waitingFor (jobs ++ [.waiting now project body]) p =
      waitingFor jobs p ++ if project = p then [jobs.length] else [] := by
  rw [waitingFor, placesOf_append]
  simp only [Job.waitsFor, decide_eq_true_eq]
  rfl

theorem ended_append_finished (jobs : List (Job α)) (r : Except Failure α) :
    ended (jobs ++ [.finished r]) = ended jobs ++ [jobs.length] :=
  placesOf_append Job.isDone jobs (.finished r)

theorem ended_append_waiting (jobs : List (Job α)) (now : Instant) (project : Uuid)
    (body : Program α) : ended (jobs ++ [.waiting now project body]) = ended jobs := by
  rw [ended, placesOf_append]
  exact List.append_nil _

/-- When the first one that waits for a project has ended, the others still wait. -/
theorem waitingFor_set_finished {i : Nat} {rest : List Nat} {p : Uuid}
    (h : waitingFor jobs p = i :: rest) (r : Except Failure α) (p' : Uuid) :
    waitingFor (jobs.set i (.finished r)) p' = if p' = p then rest else waitingFor jobs p' := by
  have hset : waitingFor (jobs.set i (.finished r)) p' = (waitingFor jobs p').erase i :=
    placesOf_set rfl
  have hi : i ∈ waitingFor jobs p := h ▸ List.mem_cons_self
  rw [hset]
  split
  · rename_i hp
    rw [hp, h, List.erase_cons_head]
  · rename_i hp
    exact List.erase_of_not_mem fun hi' => hp (project_eq_of_mem_waitingFor hi' hi)

/-! ### The users of a project -/

/-- The users of a project while outsiders hold some projects. -/
def queue (held : List Uuid) (jobs : List (Job α)) (p : Uuid) : List Party :=
  (if p ∈ held then [.outsider p] else []) ++ (waitingFor jobs p).map .operation

theorem outsider_mem_queue {held : List Uuid} {p p' : Uuid} :
    .outsider p ∈ queue held jobs p' ↔ p = p' ∧ p ∈ held := by
  rw [queue, List.mem_append, List.mem_map]
  split
  · rename_i hheld
    constructor
    · rintro (h | ⟨i, -, hi⟩)
      · cases List.mem_singleton.1 h
        exact ⟨rfl, hheld⟩
      · cases hi
    · rintro ⟨rfl, -⟩
      exact .inl List.mem_cons_self
  · rename_i hheld
    constructor
    · rintro (h | ⟨i, -, hi⟩)
      · cases h
      · cases hi
    · rintro ⟨rfl, hp⟩
      exact absurd hp hheld

/-- A place that has not been given yet uses nothing. -/
theorem operation_not_mem_queue (held : List Uuid) (jobs : List (Job α)) (p : Uuid) :
    .operation jobs.length ∉ queue held jobs p := by
  rw [queue, List.mem_append, List.mem_map]
  rintro (h | ⟨i, hi, hparty⟩)
  · split at h
    · cases List.mem_singleton.1 h
    · cases h
  · cases hparty
    obtain ⟨now, body, hj⟩ := mem_waitingFor.1 hi
    exact Nat.lt_irrefl _ (List.getElem?_eq_some_iff.1 hj).1

/-- It does not matter in which order the outsiders have come. -/
theorem queue_perm {held held' : List Uuid} (h : held'.Perm held) (jobs : List (Job α)) :
    queue held' jobs = queue held jobs := by
  funext p
  simp only [queue, h.mem_iff]

/-- The users while an outsider holds the project. -/
theorem queue_of_mem {held : List Uuid} {p : Uuid} (h : p ∈ held) (jobs : List (Job α)) :
    queue held jobs p = .outsider p :: (waitingFor jobs p).map .operation := by
  rw [queue, if_pos h, List.singleton_append]

theorem queue_of_not_mem {held : List Uuid} {p : Uuid} (h : p ∉ held) (jobs : List (Job α)) :
    queue held jobs p = (waitingFor jobs p).map .operation := by
  rw [queue, if_neg h, List.nil_append]

/-- Other projects are used by those who wait for them. -/
theorem update_queue {held : List Uuid} {p : Uuid} {jobs' : List (Job α)}
    (h : ∀ p', p' ≠ p → waitingFor jobs' p' = waitingFor jobs p') (us : List Party) :
    Function.update (queue held jobs') p us = Function.update (queue held jobs) p us := by
  funext p'
  by_cases hp' : p' = p
  · rw [hp', Function.update_self, Function.update_self]
  · rw [Function.update_of_ne hp', Function.update_of_ne hp', queue, queue, h p' hp']

theorem queue_append_finished (held : List Uuid) (jobs : List (Job α)) (r : Except Failure α) :
    queue held (jobs ++ [.finished r]) = queue held jobs := by
  funext p
  rw [queue, queue, waitingFor_append_finished]

/-- One more operation waits. -/
theorem queue_append_waiting (held : List Uuid) (jobs : List (Job α)) (now : Instant) (p : Uuid)
    (body : Program α) :
    queue held (jobs ++ [.waiting now p body]) =
      Function.update (queue held jobs) p (queue held jobs p ++ [.operation jobs.length]) := by
  funext p'
  rw [queue, waitingFor_append_waiting]
  by_cases hp' : p' = p
  · subst hp'
    rw [Function.update_self, if_pos rfl, queue, List.map_append, List.append_assoc]
    rfl
  · rw [Function.update_of_ne hp', if_neg (Ne.symm hp'), List.append_nil, queue]

/-- An outsider more, at a project that nobody uses. -/
theorem queue_append_held {held : List Uuid} {p : Uuid} (h : waitingFor jobs p = [])
    (hp : p ∉ held) :
    queue (held ++ [p]) jobs =
      Function.update (queue held jobs) p (queue held jobs p ++ [.outsider p]) := by
  funext p'
  by_cases hp' : p' = p
  · subst hp'
    rw [Function.update_self, queue_of_not_mem hp, queue_of_mem (by simp), h]
    rfl
  · rw [Function.update_of_ne hp', queue, queue]
    simp [hp']

/-- An outsider less. -/
theorem queue_cons_held {held : List Uuid} {p : Uuid} (jobs : List (Job α)) :
    queue (p :: held) jobs =
      Function.update (queue held jobs) p (.outsider p :: (waitingFor jobs p).map .operation) := by
  funext p'
  by_cases hp' : p' = p
  · subst hp'
    rw [Function.update_self, queue_of_mem List.mem_cons_self]
  · rw [Function.update_of_ne hp', queue, queue]
    simp [hp']

end Scene

end Agenda
