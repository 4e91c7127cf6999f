import Agenda.Proofs.Operation.Effect

/-!
# What operations make of a sound catalog

Every operation leaves a sound catalog sound, and one that fails leaves it as it was
(`Effect.leaves`): each change that an operation can make is one that soundness allows.
-/

namespace Agenda

variable {c : Catalog} {t : Task} {on : Occasion}

/-- How an operation leaves a catalog: sound, and as it was if the operation fails. -/
structure Leaves {α : Type} (c : Catalog) (r : Except Failure α) (c' : Catalog) : Prop where
  sound : c'.Sound
  unchanged : ∀ e, r = .error e → c' = c

namespace Leaves

variable {α : Type}

theorem of_ok {a : α} {c' : Catalog} (h : c'.Sound) : Leaves c (.ok a) c' :=
  ⟨h, fun _ he => nomatch he⟩

theorem of_error {e : Failure} (h : c.Sound) : Leaves c (.error e : Except Failure α) c :=
  ⟨h, fun _ _ => rfl⟩

end Leaves

/-! ### Writes that keep a catalog sound -/

namespace Catalog.Sound

/-- A task with a new identifier and a good name can go behind its siblings. -/
theorem withTask (h : c.Sound) (hnew : ∀ s ∈ c.tasks, s.id ≠ t.id)
    (hname : Task.checkName t.name = .ok t.name) (hproject : ∃ p ∈ c.projects, p.id = t.project)
    (hparent : ∀ u, t.parent = some u → ∃ s ∈ c.tasks, s.id = u ∧ s.project = t.project) :
    (c.withTask (c.asLast t)).Sound where
  wellFormed := h.wellFormed.withTask hnew hproject hparent
  dense := h.dense.withTask rfl
  names := by
    intro s hs
    rcases List.mem_append.1 hs with hs | hs
    · exact h.names s hs
    · rw [List.mem_singleton.1 hs]
      exact hname
  projects := h.projects

/-- A task can get another good name. -/
theorem rename (h : c.Sound) (now : Instant) (u : Uuid) {name : Text}
    (hname : Task.checkName name = .ok name) :
    (c.revise (only u fun t => { t with name := name, updated := now })).Sound := by
  refine h.revise ((KeepsTree.renamed now name).only u) (fun t => ?_) (fun t ht => ?_)
  · unfold only
    split <;> rfl
  · unfold only
    split
    · exact hname
    · exact h.names t ht

/-- A project with a new identifier and a good new name can be added. -/
theorem withProject (h : c.Sound) {p : Project} (hid : ∀ q ∈ c.projects, q.id ≠ p.id)
    (hname : ∀ q ∈ c.projects, q.name ≠ p.name) (hvalid : p.errors = []) :
    ({ c with projects := c.projects ++ [p] } : Catalog).Sound where
  wellFormed := h.wellFormed.withProject hid hname
  dense := h.dense
  names := h.names
  projects := by
    intro q hq
    rcases List.mem_append.1 hq with hq | hq
    · exact h.projects q hq
    · rw [List.mem_singleton.1 hq]
      exact hvalid

end Catalog.Sound

/-! ### All operations -/

/-- **Sound after sound.**  Whatever an operation does leaves a sound catalog sound. -/
theorem Effect.leaves {op : Operation} {r : Except Failure Answer} {c' : Catalog} (h : c.Sound)
    (heffect : Effect on c op r c') : Leaves c r c' := by
  cases heffect with
  | refused => exact .of_error h
  | looked => exact .of_ok h
  | createdProject hid hfree hname =>
    exact .of_ok (h.withProject hid hfree (Project.errors_eq_nil.2 hname))
  | createdTask hid hname hhome hparent =>
    exact .of_ok (h.withTask hid (Task.refusal?_eq_none_iff.1 hname).2 hhome hparent)
  | @renamed t name ht hname => exact .of_ok (h.rename on.now t.id hname)
  | moved ht =>
    rw [Catalog.relocated_eq_moved h.wellFormed.ids (h.dense _) ht]
    exact .of_ok (h.moved on.now ht _)
  | given ht hop hspreads => exact .of_ok (hspreads.restated.sound h)
  | deleted ht => exact .of_ok (h.pruned on.now ht)
  | absent => exact .of_ok h

end Agenda
