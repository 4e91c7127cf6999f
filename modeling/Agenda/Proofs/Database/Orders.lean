import Agenda.Proofs.Database.Walks

/-!
# Many places at once

One request can give places to many tasks, and may name a task more than once.

**All or nothing** (`Catalog.setOrders_exact`).  If a task of the list is not stored, the request is
refused with the first such task, and the store is as before, whatever stands before that task in
the list or after it.  Otherwise each task of the list has the place that is last for it in the list
and the time of the request, and nothing else changes.  A session does the same with its tables, as
long as the numbers fit.

All that is said of one task is said by `Task.placed_cases`, and all that is said of missing ones by
`Catalog.firstMissing?_cases`; what is left is that the tables are no different.
-/

namespace Agenda

open Store

variable {c : Catalog} {opened : Database} {now : Instant} {orders : List (Uuid × Int)}

/-- A session refuses the first missing task of a list, and keeps its tables. -/
theorem Session.setOrders_of_missing {id : Uuid}
    (hmiss : c.firstMissing? (orders.map (·.1)) = some id) :
    Backend.answer now (.setOrders orders) (Session.holding opened c) =
      (.error (.of (.noTask id)), Session.holding opened c) := by
  refine Session.answer_eq opened ?_ rfl
  show (Database.ofCatalog c).setOrders now orders = _
  rw [Database.setOrders, Database.firstMissing?_ofCatalog, hmiss]

/-- A session puts tasks where a catalog puts them, if the numbers fit. -/
theorem Session.setOrders_of_stored (hstored : ∀ o ∈ orders, ∃ t ∈ c.tasks, t.id = o.1)
    (hfits : ∀ t ∈ c.tasks, fitsColumn t.order = true)
    (horders : ∀ o ∈ orders, fitsColumn o.2 = true) :
    Backend.answer now (.setOrders orders) (Session.holding opened c) =
      (.ok (), Session.holding opened (c.revise (Task.placed now orders))) := by
  refine Session.answer_eq opened ?_ rfl
  show (Database.ofCatalog c).setOrders now orders = _
  rcases Database.setOrders_ofCatalog c orders with hsame | ⟨hover, -⟩
  · rw [hsame, Catalog.setOrders_of_stored hstored]
  · -- every number in the tables is one of the list, or was there before
    rw [Catalog.setOrders_of_stored hstored] at hover
    obtain ⟨t', ht', hbig⟩ := hover
    obtain ⟨t, ht, rfl⟩ := List.mem_map.1 ht'
    rcases t.placed_order_mem now orders with hold | hnew
    · rw [hold] at hbig
      exact absurd (hfits t ht) hbig
    · obtain ⟨o, ho, hplace⟩ := List.mem_map.1 hnew
      rw [← hplace] at hbig
      exact absurd (horders o ho) hbig

namespace Catalog

/-- **All or nothing.**  If some task of a list is not stored, the first of these is reported and
nothing changes.  If all are stored, a task that is not in the list stays as it is, and a task of
the list gets the place that the list has for it last and the time of the request. -/
theorem setOrders_exact (c : Catalog) (opened : Database) (now : Instant)
    (orders : List (Uuid × Int)) :
    ((∃ o ∈ orders, ∀ t ∈ c.tasks, t.id ≠ o.1) →
      ∃ front id back, orders.map (·.1) = front ++ id :: back ∧
        (∀ i ∈ front, ∃ t ∈ c.tasks, t.id = i) ∧ (∀ t ∈ c.tasks, t.id ≠ id) ∧
        Backend.answer now (.setOrders orders) c = (.error (.of (.noTask id)), c) ∧
        Backend.answer now (.setOrders orders) (Session.holding opened c) =
          (.error (.of (.noTask id)), Session.holding opened c)) ∧
    ((∀ o ∈ orders, ∃ t ∈ c.tasks, t.id = o.1) →
      ∃ f : Task → Task,
        Backend.answer now (.setOrders orders) c = (.ok (), c.revise f) ∧
        ((∀ t ∈ c.tasks, fitsColumn t.order = true) →
          (∀ o ∈ orders, fitsColumn o.2 = true) →
          Backend.answer now (.setOrders orders) (Session.holding opened c) =
            (.ok (), Session.holding opened (c.revise f))) ∧
        ∀ t, (t.id ∉ orders.map (·.1) ∧ f t = t) ∨
          ∃ front order back, orders = front ++ (t.id, order) :: back ∧
            t.id ∉ back.map (·.1) ∧ f t = { t with order := order, updated := now }) := by
  constructor
  · rintro ⟨o, ho, hno⟩
    rcases c.firstMissing?_cases (orders.map (·.1)) with
      ⟨hall, -⟩ | ⟨front, id, back, hsplit, hfront, hid, hmiss⟩
    · obtain ⟨t, ht, hto⟩ := hall o.1 (List.mem_map_of_mem ho)
      exact absurd hto (hno t ht)
    · refine ⟨front, id, back, hsplit, hfront, hid, ?_, Session.setOrders_of_missing hmiss⟩
      rw [answer_setOrders, setOrders, hmiss]
  · intro hstored
    refine ⟨Task.placed now orders, ?_, Session.setOrders_of_stored hstored,
      Task.placed_cases now orders⟩
    rw [answer_setOrders, setOrders_of_stored hstored]

-- the last place counts, also where it is the one that the task had
example : (thicket.setOrders ⟨6⟩ [(⟨5#128⟩, 4), (⟨3#128⟩, 2), (⟨5#128⟩, 1)]).2.tasks.map
    (fun t => (t.order, t.updated)) = [(0, ⟨2⟩), (2, ⟨6⟩), (7, ⟨4⟩), (1, ⟨6⟩)] := by
  decide

end Catalog

end Agenda
