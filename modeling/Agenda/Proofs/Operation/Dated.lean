import Agenda.Proofs.Operation.Effect

/-!
# Changes bear their date

What an operation does to a task that it does not take away: it leaves the task as it is, or it
gives the task another name, status or place, and the time of the operation as the time of the
change (`Task.Dated`).  All rewritings of a catalog are of this kind, whichever tasks they are for.

**Where a task comes from** (`Effect.origin`).  Whatever an operation leaves in the catalog was
there before and is dated in this way, or it is new and bears the time of the operation twice.
-/

namespace Agenda

variable {now : Instant} {c c' : Catalog} {on : Occasion} {op : Operation}

/-- What may become of a task at a time: it stays as it is, or it gets another name, status or
place, and then the time is that of its last change. -/
inductive Task.Dated (now : Instant) (t : Task) : Task → Prop
  | same : Dated now t t
  | changed (name : Text) (status : Status) (order : Int) :
    Dated now t { t with name := name, status := status, order := order, updated := now }

namespace Task

namespace Dated

variable {t t' t'' : Task}

theorem id (h : t.Dated now t') : t'.id = t.id := by
  cases h <;> rfl

theorem created (h : t.Dated now t') : t'.created = t.created := by
  cases h <;> rfl

/-- The time of the last change is what it was, or it is this time. -/
theorem updated (h : t.Dated now t') : t'.updated = t.updated ∨ t'.updated = now := by
  cases h with
  | same => exact .inl rfl
  | changed => exact .inr rfl

/-- Two changes at one time are one change. -/
theorem trans (h : t.Dated now t') (h' : t'.Dated now t'') : t.Dated now t'' := by
  cases h' with
  | same => exact h
  | changed name status order =>
    cases h with
    | same => exact .changed name status order
    | changed => exact .changed name status order

end Dated

/-- A task with a new name. -/
theorem dated_renamed (now : Instant) (name : Text) (u : Uuid) (t : Task) :
    t.Dated now (Catalog.only u (fun t => { t with name := name, updated := now }) t) := by
  unfold Catalog.only
  split
  · exact .changed name t.status t.order
  · exact .same

/-- A task that places are set for, be it more than once. -/
theorem dated_placed (now : Instant) (orders : List (Uuid × Int)) (t : Task) :
    t.Dated now (t.placed now orders) := by
  induction orders generalizing t with
  | nil => exact .same
  | cons o orders ih =>
    rw [placed_cons]
    refine Dated.trans ?_ (ih _)
    split
    · exact .changed t.name t.status o.2
    · exact .same

/-- A task that a status may be given to. -/
theorem dated_restated (now : Instant) (status : Status) (ids : List Uuid) (t : Task) :
    t.Dated now (t.restated now status ids) := by
  by_cases h : t.id ∈ ids
  · rw [restated_of_mem h]
    exact .changed t.name status t.order
  · rw [restated_of_notMem h]
    exact .same

end Task

namespace Catalog

/-- Where a task comes from that is stored after an operation at a time. -/
inductive Origin (now : Instant) (c : Catalog) (t' : Task) : Prop
  /-- It has been stored before. -/
  | stored {t : Task} (ht : t ∈ c.tasks) (h : t.Dated now t')
  /-- It is new. -/
  | new (hid : ∀ t ∈ c.tasks, t.id ≠ t'.id) (hcreated : t'.created = now)
    (hupdated : t'.updated = now)

/-- Every task of the second catalog comes from the first one at a time. -/
def Stems (now : Instant) (c c' : Catalog) : Prop := ∀ t' ∈ c'.tasks, c.Origin now t'

namespace Stems

theorem refl (now : Instant) (c : Catalog) : c.Stems now c := fun _ ht => .stored ht .same

/-- From the tasks that are not taken out, and from rewritten ones. -/
theorem revise {f : Task → Task} (hf : ∀ t : Task, t.Dated now (f t)) (D : List Uuid)
    (c : Catalog) : c.Stems now ((c.without D).revise f) := by
  intro t' ht'
  obtain ⟨t, ht, rfl⟩ := List.mem_map.1 ht'
  exact .stored (mem_without.1 ht).1 (hf t)

/-- From all tasks, rewritten. -/
theorem revise_all {f : Task → Task} (hf : ∀ t : Task, t.Dated now (f t)) (c : Catalog) :
    c.Stems now (c.revise f) := by
  have h := revise hf [] c
  rwa [without_nil] at h

theorem withTask {t : Task} (hid : ∀ s ∈ c.tasks, s.id ≠ t.id) (hcreated : t.created = now)
    (hupdated : t.updated = now) : c.Stems now (c.withTask t) := by
  intro t' ht'
  rcases List.mem_append.1 ht' with ht' | ht'
  · exact .stored ht' .same
  · rw [List.mem_singleton.1 ht']
    exact .new hid hcreated hupdated

/-- Setting a task to another place. -/
theorem relocated (now : Instant) (t : Task) (target : Int) (c : Catalog) :
    c.Stems now (c.relocated now t target) := by
  rcases c.relocated_cases now t target with hsame | ⟨orders, hplaced⟩
  · rw [hsame]
    exact .refl now c
  · rw [hplaced]
    exact revise_all (Task.dated_placed now orders) c

/-- Giving a task a status, however far that spreads. -/
theorem spreads {t : Task} {status : Status} (h : c.Spreads now t status c') :
    c.Stems now c' := by
  cases h with
  | completed | reopened => exact revise_all (Task.dated_restated now _ _) c
  | pending => exact .refl now c

/-- The task of the second catalog that has the identifier of a stored one is that one, dated. -/
theorem dated (h : c.Stems now c') (hids : c.UniqueIds) {t t' : Task} (ht : t ∈ c.tasks)
    (ht' : t' ∈ c'.tasks) (hid : t'.id = t.id) : t.Dated now t' := by
  cases h t' ht' with
  | @stored s hs hdated =>
    obtain rfl : s = t := hids.eq hs ht (hdated.id.symm.trans hid)
    exact hdated
  | new hnew => exact absurd hid.symm (hnew t ht)

end Stems

end Catalog

/-- **Where a task comes from** that is stored after an operation. -/
theorem Effect.origin {r : Except Failure Answer} (h : Effect on c op r c') :
    c.Stems on.now c' := by
  cases h with
  | refused | looked | absent => exact .refl on.now c
  | createdProject => exact fun _ ht => .stored ht .same
  | createdTask hid => exact .withTask hid rfl rfl
  | renamed => exact .revise_all (Task.dated_renamed on.now _ _) c
  | moved => exact .relocated on.now _ _ c
  | given _ _ hspreads => exact .spreads hspreads
  | deleted => exact .revise (Task.dated_placed on.now _) _ c

end Agenda
