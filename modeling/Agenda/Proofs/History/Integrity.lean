import Agenda.Proofs.History.Media

/-!
# What holds of the records at all times

Two statements about the records after any history, from empty ones, wherever they are kept.  Every
group of siblings is counted from zero without a gap (`siblings_dense`), and the tasks form trees
in their projects (`trees_intact`).  Nothing is asked of the operations: they may fail, their
clocks may go back, and an identifier may be supplied that is stored or was once.

The records of a database are what is read back from its rows, so both statements say as well that
every row can be read.
-/

namespace Agenda.History

open Relation

/-- A catalog is well-formed, and the parents of each task lead to a root. -/
def Intact (c : Catalog) : Prop :=
  c.WellFormed ∧
    ∀ t ∈ c.tasks, ∃ r ∈ c.tasks, r.parent = none ∧ ReflTransGen (Link c.tasks) r.id t.id

/-- What holds of sound catalogs holds of the records after every history, in memory and in a
database with one session for each operation or for all of them. -/
theorem holds_after {P : Catalog → Prop} (hP : ∀ c : Catalog, c.Sound → P c) (h : History) :
    P (after inMemory .empty h) ∧
      (∃ c, (after perOperation .empty h).records = .ok c ∧ P c) ∧
      ∃ c, (after sharedSession (Session.start .empty) h).current.records = .ok c ∧ P c := by
  obtain ⟨c, hc, hper⟩ := Medium.database.records_after h
  obtain ⟨c', hc', hshared⟩ := Medium.session.records_after h
  exact ⟨hP _ (sound_after h), ⟨c, hper, hP c hc⟩, ⟨c', hshared, hP c' hc'⟩⟩

/-- **Density.**  After every history the orders of the root tasks of each project, and those of the
children of each task, are `0, 1, …`, each once. -/
theorem siblings_dense (h : History) :
    (after inMemory .empty h).Dense ∧
      (∃ c, (after perOperation .empty h).records = .ok c ∧ c.Dense) ∧
      ∃ c, (after sharedSession (Session.start .empty) h).current.records = .ok c ∧ c.Dense :=
  holds_after (fun _ hc => hc.dense) h

/-- **Integrity.**  After every history each task lies in a stored project and below a stored parent
of the same project, its parents lead to a root and never back, and nothing is stored twice. -/
theorem trees_intact (h : History) :
    Intact (after inMemory .empty h) ∧
      (∃ c, (after perOperation .empty h).records = .ok c ∧ Intact c) ∧
      ∃ c, (after sharedSession (Session.start .empty) h).current.records = .ok c ∧ Intact c :=
  holds_after (fun _ hc => ⟨hc.wellFormed, fun _ ht => hc.wellFormed.rooted ht⟩) h

end Agenda.History
