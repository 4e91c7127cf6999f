import Agenda.Proofs.Catalog.Dense

/-!
# Tidy and sound catalogs

Between the requests of one operation a group of siblings may have a gap or a place given twice.
What holds of a catalog even then is that its tasks form a forest, that is, identifiers are unique
and no task is below itself.  If all goes well it is also tidy: every record passes its own check,
and every order is below a bound.  At the end of an operation more holds: a sound catalog is
well-formed and dense, and its tasks have names that a request may give them.

Such a name may be one that cannot be written.  A sound catalog in which all names can be written
(`Catalog.Writable`) is tidy, with any bound that its number of tasks keeps (`Sound.tidy`).
-/

namespace Agenda

/-- A task passes its check if its name keeps the rule and its order is not negative. -/
theorem Task.errors_eq_nil {t : Task} :
    t.errors = [] ↔ NameRule.task.refusal? t.name = none ∧ 0 ≤ t.order := by
  unfold errors
  cases NameRule.task.refusal? t.name with
  | none =>
    rw [← Int.not_lt]
    by_cases ho : t.order < 0 <;> simp [ho]
  | some why => simp

theorem Project.errors_eq_nil {p : Project} :
    p.errors = [] ↔ NameRule.project.refusal? p.name = none := by
  unfold errors
  cases NameRule.project.refusal? p.name <;> simp

/-- A name keeps a rule if it can be written, is not too long and is not blank. -/
theorem NameRule.refusal?_eq_none_iff {rule : NameRule} {name : Text} :
    rule.refusal? name = none ↔
      name.isWritable = true ∧ name.length ≤ rule.limit ∧ name.isBlankText = false := by
  have hempty : name.length = 0 → name.isBlankText = true := by
    intro h
    rw [Text.isBlankText, List.length_eq_zero_iff.1 h]
    rfl
  unfold refusal?
  split
  · rename_i hbad
    rw [Bool.not_eq_true'] at hbad
    simp [hbad]
  · rename_i hgood
    rw [Bool.not_eq_true', Bool.not_eq_false] at hgood
    split
    · rename_i hzero
      simp [hempty hzero]
    · split
      · rename_i hlong
        simp only [reduceCtorEq, false_iff, not_and]
        intro _ hle
        omega
      · rename_i hlong
        rw [Nat.not_lt] at hlong
        cases name.isBlankText <;> simp [hgood, hlong]

/-- The name that a request gets through is the one that it has brought. -/
theorem Task.checkName_eq_ok {name name' : Text} (h : checkName name = .ok name') :
    name' = name := by
  unfold checkName at h
  split at h
  · cases h
  · split at h
    · cases h
    · cases h
      rfl

/-- A request gets a name through that is not blank and not too long. -/
theorem Task.checkName_eq_ok_iff {name : Text} :
    checkName name = .ok name ↔
      name.length ≤ NameRule.task.limit ∧ name.isBlankText = false := by
  unfold checkName
  split
  · rename_i hblank
    simp [hblank]
  · rename_i hblank
    split
    · rename_i hlong
      simp only [reduceCtorEq, false_iff, not_and]
      intro hle
      omega
    · rename_i hlong
      rw [Nat.not_lt] at hlong
      simp [hlong, Bool.eq_false_iff.2 hblank]

/-- A name keeps the rule for stored names if a request gets it through and it can be written. -/
theorem Task.refusal?_eq_none_iff {name : Text} :
    NameRule.task.refusal? name = none ↔ name.isWritable = true ∧ checkName name = .ok name := by
  rw [NameRule.refusal?_eq_none_iff, checkName_eq_ok_iff]

namespace Catalog

variable {B : Nat} {c : Catalog} {t : Task}

/-! ### Tidy catalogs -/

/-- The tasks form trees, and some of them may lack their parent. -/
structure Forest (c : Catalog) : Prop where
  /-- No two tasks share an identifier. -/
  ids : c.UniqueIds
  /-- The parents of a task never lead back to it. -/
  acyclic : Acyclic c.tasks

/-- Every record passes its check. -/
structure Valid (c : Catalog) : Prop where
  /-- Every task passes its check. -/
  tasks : ∀ t ∈ c.tasks, t.errors = []
  /-- Every project passes its check. -/
  projects : ∀ p ∈ c.projects, p.errors = []

/-- What holds of a catalog even between the requests of one operation. -/
structure Tidy (B : Nat) (c : Catalog) : Prop extends Forest c, Valid c where
  /-- Every order is below the bound. -/
  orders : ∀ t ∈ c.tasks, t.order < B

/-- The tasks form whole trees: none of them lacks its parent. -/
structure Whole (c : Catalog) : Prop extends Forest c where
  /-- The parents of stored tasks are stored. -/
  parentStored : ∀ t ∈ c.tasks, c.ParentStored t

theorem WellFormed.forest (h : c.WellFormed) : c.Forest := ⟨h.ids, h.acyclic⟩

theorem WellFormed.whole (h : c.WellFormed) : c.Whole := ⟨h.forest, h.parentStored⟩

namespace Forest

theorem revise (h : c.Forest) {f : Task → Task} (hf : KeepsTree f) : (c.revise f).Forest :=
  ⟨h.ids.revise hf.id, (acyclic_map hf.id hf.parent).2 h.acyclic⟩

theorem without (h : c.Forest) (D : List Uuid) : (c.without D).Forest :=
  ⟨h.ids.without D, h.acyclic.mono fun _ ht => (mem_without.1 ht).1⟩

end Forest

/-- Rewriting tasks leaves whole trees whole if identifiers and parents stay. -/
theorem Whole.revise (h : c.Whole) {f : Task → Task} (hf : KeepsTree f) : (c.revise f).Whole where
  toForest := h.toForest.revise hf
  parentStored := by
    intro s' hs' u hu
    obtain ⟨s, hs, rfl⟩ := List.mem_map.1 hs'
    rw [hf.parent] at hu
    obtain ⟨r, hr, rfl⟩ := h.parentStored s hs u hu
    exact ⟨f r, List.mem_map_of_mem hr, hf.id r⟩

namespace Tidy

theorem revise (h : c.Tidy B) {f : Task → Task} (hf : KeepsTree f)
    (htasks : ∀ t ∈ c.tasks, (f t).errors = []) (horders : ∀ t ∈ c.tasks, (f t).order < B) :
    (c.revise f).Tidy B where
  toForest := h.toForest.revise hf
  tasks := by
    intro t' ht'
    obtain ⟨t, ht, rfl⟩ := List.mem_map.1 ht'
    exact htasks t ht
  orders := by
    intro t' ht'
    obtain ⟨t, ht, rfl⟩ := List.mem_map.1 ht'
    exact horders t ht
  projects := h.projects

theorem without (h : c.Tidy B) (D : List Uuid) : (c.without D).Tidy B where
  toForest := h.toForest.without D
  tasks := fun t ht => h.tasks t (mem_without.1 ht).1
  orders := fun t ht => h.orders t (mem_without.1 ht).1
  projects := h.projects

/-- Places within the bounds leave a catalog tidy. -/
theorem placed (h : c.Tidy B) (now : Instant) {orders : List (Uuid × Int)}
    (hb : ∀ o ∈ orders, 0 ≤ o.2 ∧ o.2 < B) : (c.revise (Task.placed now orders)).Tidy B := by
  have hplace : ∀ t ∈ c.tasks, 0 ≤ (t.placed now orders).order ∧
      (t.placed now orders).order < B := by
    intro t ht
    rcases t.placed_order_mem now orders with hsame | hmem
    · rw [hsame]
      exact ⟨(Task.errors_eq_nil.1 (h.tasks t ht)).2, h.orders t ht⟩
    · obtain ⟨o, ho, hoe⟩ := List.mem_map.1 hmem
      rw [← hoe]
      exact hb o ho
  refine h.revise (.placed now orders) (fun t ht => ?_) (fun t ht => (hplace t ht).2)
  rw [Task.errors_eq_nil, Task.placed_name]
  exact ⟨(Task.errors_eq_nil.1 (h.tasks t ht)).1, (hplace t ht).1⟩

end Tidy

/-! ### Sound catalogs -/

/-- All names of tasks can be written. -/
def Writable (c : Catalog) : Prop := ∀ t ∈ c.tasks, t.name.isWritable = true

/-- What holds of a catalog at the end of every operation. -/
structure Sound (c : Catalog) : Prop where
  wellFormed : c.WellFormed
  dense : c.Dense
  /-- Every task has a name that a request may give it. -/
  names : ∀ t ∈ c.tasks, Task.checkName t.name = .ok t.name
  /-- Every project passes its check. -/
  projects : ∀ p ∈ c.projects, p.errors = []

namespace Sound

theorem empty : Catalog.empty.Sound where
  wellFormed := .empty
  dense := .empty
  names := fun _ h => nomatch h
  projects := fun _ h => nomatch h

theorem valid (h : c.Sound) (hw : c.Writable) : c.Valid where
  tasks := fun t ht => Task.errors_eq_nil.2
    ⟨Task.refusal?_eq_none_iff.2 ⟨hw t ht, h.names t ht⟩, (h.dense.order_bounds ht).1⟩
  projects := h.projects

theorem tidy (h : c.Sound) (hw : c.Writable) (hB : c.tasks.length ≤ B) : c.Tidy B where
  toForest := h.wellFormed.forest
  toValid := h.valid hw
  orders := by
    intro t ht
    have := (h.dense.order_bounds ht).2
    omega

/-- Rewriting tasks keeps a catalog sound if it leaves alone what soundness speaks of. -/
theorem revise (h : c.Sound) {f : Task → Task} (hf : KeepsTree f)
    (horder : ∀ t, (f t).order = t.order)
    (hname : ∀ t ∈ c.tasks, Task.checkName (f t).name = .ok (f t).name) : (c.revise f).Sound where
  wellFormed := h.wellFormed.revise hf
  dense := h.dense.revise hf horder
  names := by
    intro t' ht'
    obtain ⟨t, ht, rfl⟩ := List.mem_map.1 ht'
    exact hname t ht
  projects := h.projects

end Sound

end Catalog

end Agenda
