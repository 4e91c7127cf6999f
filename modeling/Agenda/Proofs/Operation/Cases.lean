import Agenda.Proofs.Operation.Effect

/-!
# What each operation does

`Effect` lists what operations in general can do; read from the side of one operation, the list has
two entries, a refusal and a change (`Effect.of_refusal`, and `Effect.of_rename`,
`Effect.of_reorder`, … for an operation that is not refused).  Only a removal has no refusal, but it
may find nothing to remove.
-/

namespace Agenda

variable {c c' : Catalog} {on : Occasion} {op : Operation} {r : Except Failure Answer}

namespace Effect

/-- An operation that is refused fails and changes nothing. -/
theorem of_refusal {e : Failure} (h : Effect on c op r c') (hids : c.UniqueIds)
    (he : op.refusal? on c = some e) : r = .error e ∧ c' = c := by
  cases r with
  | ok a =>
    rw [h.refusal?_eq_none hids] at he
    cases he
  | error e' =>
    rw [h.refusal?_eq_some] at he
    exact ⟨congrArg _ (Option.some.inj he), h.unchanged⟩

/-- An operation that only looks changes nothing. -/
theorem of_isLook (h : Effect on c op r c') (hop : op.IsLook) : c' = c := by
  cases h with
  | refused | looked | absent => rfl
  | createdProject | createdTask | renamed | moved | deleted => exact hop.elim
  | given _ hstatus =>
    cases op with
    | setStatus | complete | reopen => exact hop.elim
    | _ => cases hstatus

theorem of_createProject {name : Text} (h : Effect on c (.createProject name) r c')
    (hno : (Operation.createProject name).refusal? on c = none) :
    r = .ok (.project ⟨on.freshId, name, on.now⟩) ∧
      c' = { c with projects := c.projects ++ [⟨on.freshId, name, on.now⟩] } := by
  cases h with
  | refused he =>
    rw [hno] at he
    cases he
  | looked _ ha => cases ha
  | createdProject => exact ⟨rfl, rfl⟩
  | given _ hop => cases hop

theorem of_createTask {name : Text} {home : Uuid} {parent : Option Uuid}
    (h : Effect on c (.createTask name home parent) r c')
    (hno : (Operation.createTask name home parent).refusal? on c = none) :
    r = .ok (.ofTask (c.asLast (Task.create on name home parent))) ∧
      c' = c.withTask (c.asLast (Task.create on name home parent)) ∧
      NameRule.task.refusal? name = none ∧
      ∀ u, parent = some u → ∃ s ∈ c.tasks, s.id = u ∧ s.project = home := by
  cases h with
  | refused he =>
    rw [hno] at he
    cases he
  | looked _ ha => cases ha
  | createdTask _ hname _ hparent => exact ⟨rfl, rfl, hname, hparent⟩
  | given _ hop => cases hop

theorem of_rename {id : Uuid} {name : Text} (h : Effect on c (.rename id name) r c')
    (hno : (Operation.rename id name).refusal? on c = none) :
    ∃ t ∈ c.tasks, t.id = id ∧ r = .ok (.ofTask { t with name := name, updated := on.now }) ∧
      c' = c.revise (Catalog.only id fun t => { t with name := name, updated := on.now }) := by
  cases h with
  | refused he =>
    rw [hno] at he
    cases he
  | looked _ ha => cases ha
  | renamed ht => exact ⟨_, ht, rfl, rfl, rfl⟩
  | given _ hop => cases hop

theorem of_reorder {id : Uuid} {place : Int} (h : Effect on c (.reorder id place) r c')
    (hno : (Operation.reorder id place).refusal? on c = none) :
    ∃ t ∈ c.tasks, t.id = id ∧ r = .ok (.ofTask { t with order := c.placeFor t place }) ∧
      c' = c.relocated on.now t place := by
  cases h with
  | refused he =>
    rw [hno] at he
    cases he
  | looked _ ha => cases ha
  | moved ht => exact ⟨_, ht, rfl, rfl, rfl⟩
  | given _ hop => cases hop

theorem of_status {id : Uuid} {status : Status} (h : Effect on c op r c')
    (hop : op.status? = some (id, status)) (hno : op.refusal? on c = none) :
    ∃ t ∈ c.tasks, t.id = id ∧ r = .ok (.ofTask { t with status := status }) ∧
      c.Spreads on.now t status c' := by
  cases h with
  | refused he =>
    rw [hno] at he
    cases he
  | looked _ ha =>
    cases op with
    | setStatus | complete | reopen => cases ha
    | _ => cases hop
  | createdProject | createdTask | renamed | moved | deleted | absent => cases hop
  | given ht hop' hspreads =>
    rw [hop] at hop'
    cases hop'
    exact ⟨_, ht, rfl, rfl, hspreads⟩

theorem of_delete {id : Uuid} (h : Effect on c (.delete id) r c') :
    (∃ t ∈ c.tasks, t.id = id ∧ r = .ok (.ofTask t) ∧ c' = c.pruned on.now t) ∨
      ((∀ t ∈ c.tasks, t.id ≠ id) ∧ r = .ok .nothing ∧ c' = c) := by
  cases h with
  | refused he => cases he
  | looked _ ha => cases ha
  | given _ hop => cases hop
  | deleted ht => exact .inl ⟨_, ht, rfl, rfl, rfl⟩
  | absent hno => exact .inr ⟨hno, rfl, rfl⟩

end Effect

end Agenda
