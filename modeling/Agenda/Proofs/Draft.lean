import Agenda.Draft
import Agenda.Proofs.Catalog.Sound
import Agenda.Proofs.Catalog.Trees

/-!
# Drafts that are read

A draft is checked field by field, before there is a record; a record that comes from a row is
checked as a whole.  The two checks are written apart.  If a task could pass the first one and fail
the second one, it could be stored and never be read again.

**No task does that** (`Draft.readTree_pass`): each task of a tree that a draft is read as, at every
depth, passes the check for stored records.  That check looks at the name and the order, so
`readName_ok` and `readOrder_ok` are all that is needed of the readers of single fields; the rest
follows the levels of the draft.
-/

namespace Agenda

/-- An answer is one in other words if it was one before. -/
theorem exists_of_map_eq_ok {ε α β : Type} {r : Except ε α} {f : α → β} {b : β}
    (h : r.map f = .ok b) : ∃ a, r = .ok a ∧ f a = b := by
  cases r with
  | error e => cases h
  | ok a => exact ⟨a, rfl, Except.ok.inj h⟩

/-- To put failures differently makes no answer of them. -/
theorem ok_of_mapError_eq_ok {ε ε' α : Type} {r : Except ε α} {f : ε → ε'} {a : α}
    (h : r.mapError f = .ok a) : r = .ok a := by
  cases r with
  | error e => cases h
  | ok b => exact congrArg Except.ok (Except.ok.inj h)

namespace Draft

variable {on : Occasion} {d : Draft}

/-! ### Single fields -/

/-- A name that is read keeps the rule. -/
theorem readName_ok {rule : NameRule} {v : Value} {name : Text}
    (h : readName rule v = .ok name) : rule.refusal? name = none := by
  unfold readName at h
  split at h
  · split at h
    · cases h
    · rename_i hkept
      cases h
      exact hkept
  · cases h

/-- An order that is read is not negative. -/
theorem readOrder_ok {v : Value} {n : Int} (h : readOrder v = .ok n) : 0 ≤ n := by
  unfold readOrder at h
  cases hread : readWhole v with
  | error why =>
    rw [hread] at h
    cases h
  | ok m =>
    rw [hread] at h
    change (if m < 0 then _ else _) = _ at h
    split at h
    · cases h
    · cases h
      omega

/-- What a field comes to is what an absent field comes to, or it is read from a value. -/
theorem field_ok {α : Type} {name : String} {absent : Reading α} {read : Value → Reading α} {a : α}
    (h : d.field name absent read = .ok a) : absent = .ok a ∨ ∃ v, read v = .ok a := by
  unfold field at h
  split at h
  · rename_i v _
    exact .inr ⟨v, ok_of_mapError_eq_ok h⟩
  · exact .inl (ok_of_mapError_eq_ok h)

/-! ### Tasks and their subtasks -/

/-- The fields of a task that are read pass the check for stored records. -/
theorem readTask_pass {t : Task} (h : readTask on d = .ok t) : t.errors = [] := by
  unfold readTask at h
  dsimp only at h
  split at h
  · rename_i hname _ _ _ horder _ _
    cases h
    rw [Task.errors_eq_nil]
    constructor
    · rcases field_ok hname with hmissing | ⟨v, hread⟩
      · cases hmissing
      · exact readName_ok hread
    · rcases field_ok horder with hzero | ⟨v, hread⟩
      · cases hzero
        exact le_rfl
      · exact readOrder_ok hread
  · cases h

/-- Two readings side by side come to something if both do. -/
theorem both_ok {α β : Type} {first : Except (List Field.Error) α}
    {second : Except (List Field.Error) β} {a : α} {b : β} (h : both first second = .ok (a, b)) :
    first = .ok a ∧ second = .ok b := by
  unfold both at h
  split at h
  · cases h
    exact ⟨rfl, rfl⟩
  all_goals cases h

/-- The trees that a list is read as are read from its elements. -/
theorem readAll_ok {read : Value → Except (List Field.Error) Tree} {place : Nat} {vs : List Value}
    {ts : List Tree} (h : readAll read place vs = .ok ts) :
    ∀ t ∈ ts, ∃ v ∈ vs, read v = .ok t := by
  induction vs generalizing place ts with
  | nil =>
    cases h
    exact fun t ht => nomatch ht
  | cons v vs ih =>
    obtain ⟨⟨t, rest⟩, hboth, rfl⟩ := exists_of_map_eq_ok h
    obtain ⟨hfirst, hrest⟩ := both_ok hboth
    refine List.forall_mem_cons.2 ⟨⟨v, List.mem_cons_self, ok_of_mapError_eq_ok hfirst⟩, ?_⟩
    intro s hs
    obtain ⟨w, hw, hread⟩ := ih hrest s hs
    exact ⟨w, List.mem_cons_of_mem v hw, hread⟩

/-- What is read through a number of levels consists of tasks that pass their check. -/
theorem readLevels_pass {levels : Nat} {v : Value} {t : Tree}
    (h : readLevels on levels v = .ok t) : ∀ s ∈ t.flatten, s.errors = [] := by
  induction levels generalizing v t with
  | zero => cases h
  | succ levels ih =>
    cases v with
    | record d =>
      obtain ⟨⟨task, trees⟩, hboth, rfl⟩ := exists_of_map_eq_ok h
      obtain ⟨htask, htrees⟩ := both_ok hboth
      have hbelow : ∀ t ∈ trees, ∀ s ∈ t.flatten, s.errors = [] := by
        intro t ht
        split at htrees
        · cases htrees
          cases ht
        · obtain ⟨v, -, hread⟩ := readAll_ok htrees t ht
          exact ih hread
        · cases htrees
      intro s hs
      rw [Tree.flatten, Tree.flattenAll_eq_flatMap] at hs
      rcases List.mem_cons.1 hs with rfl | hs
      · exact readTask_pass htask
      · obtain ⟨t, ht, hst⟩ := List.mem_flatMap.1 hs
        exact hbelow t ht s hst
    | plain | real | id | list => cases h

/-- **What is read can be stored and read again.**  Every task of the tree that a draft is read as
passes the check for stored records. -/
theorem readTree_pass {t : Tree} (h : readTree on d = .ok t) : ∀ s ∈ t.flatten, s.errors = [] :=
  readLevels_pass h

end Draft

end Agenda
