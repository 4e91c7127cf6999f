import Agenda.Proofs.History.Contract
import Agenda.Proofs.Operation.Cases

/-!
# What creating a task does

A request for a new task is checked in several places: the name by itself, the new task as a record,
the home and the parent once the project is free, the identifier only by the store.  **All of it
together** (`Medium.create_exact`) comes to six clauses in a fixed order.  If one of them applies
nothing is stored; otherwise exactly one task is, as the last of its siblings, and everything else
stays as it is.

This holds on every medium in every state that operations lead to, as long as fewer than `2 ^ 63`
tasks are stored.  The only state that has no part in it is a session that was spent, when there
were more of them or when a task was given a name that cannot be written (`Medium.cause_of_spent`).
-/

namespace Agenda

variable {c : Catalog} {t : Task} {on : Occasion} {op : Operation}

/-! ### Few tasks -/

/-- With a few tasks before, an operation that gives no name keeps every limit. -/
theorem Catalog.Sound.fits_inMemory_of_few (h : c.Sound) {m : Medium} (hfits : c.Fits m.limit)
    (hfew : c.tasks.length < 2 ^ 63)
    (hname : ∀ name, op.newName? = some name → name.isWritable = true) :
    (inMemory on op c).2.Fits m.limit := by
  by_cases hm : m = .memory
  · subst hm
    exact Catalog.fits_none _
  · rw [Medium.limit_eq hm] at hfits ⊢
    refine (inMemory_fits_iff h hfits).2 ?_
    rintro _ ⟨⟩
    exact Operation.fits_of_lt hfew fun _ => hname

namespace Medium

/-- As long as there are a few tasks and no names that cannot be written, a medium holds what memory
does. -/
theorem after_of_few (m : Medium) {h : History}
    (hfew : ∀ x ∈ History.trace inMemory .empty h, x.2.tasks.length < 2 ^ 63)
    (hnames : ∀ on id name, (on, .rename id name) ∈ h → name.isWritable = true) :
    m.after h = m.holding (History.after inMemory .empty h) ∧
      (History.after inMemory .empty h).Fits m.limit ∧
      (History.after inMemory .empty h).tasks.length < 2 ^ 63 := by
  induction h using List.reverseRecOn with
  | nil => exact ⟨m.start_eq, Catalog.fits_empty _, by decide⟩
  | append_singleton h o ih =>
    obtain ⟨on, op⟩ := o
    rw [History.trace_append] at hfew
    obtain ⟨hsame, hfits, hbefore⟩ := ih (fun x hx => hfew x (List.mem_append_left _ hx))
      fun on id name ho => hnames on id name (List.mem_append_left _ ho)
    have hsound := History.sound_after h
    have hnew : ∀ name, op.newName? = some name → name.isWritable = true := by
      intro name hname
      cases op with
      | rename id =>
        cases hname
        exact hnames on id name (List.mem_append_right _ List.mem_cons_self)
      | _ => cases hname
    have hfits' : (inMemory on op _).2.Fits m.limit :=
      hsound.fits_inMemory_of_few hfits hbefore hnew
    refine ⟨?_, ?_, ?_⟩
    · rw [after_concat, History.after_append, hsame]
      rcases m.step_holding hsound hfits on op with
        hstep | hover | ⟨-, name, hsought, hname, hstep⟩
      · rw [hstep.2.2]
        rfl
      · exact absurd hfits' hover.2.1
      · -- memory finds nothing where a database cannot look
        rw [hstep]
        exact congrArg m.holding (unchanged_of_sought hsound hsought hname).symm
    · rw [History.after_append]
      exact hfits'
    · rw [History.after_append]
      exact hfew _ (List.mem_append_right _ List.mem_cons_self)

/-- Only many tasks spend a session, or a name that cannot be written. -/
theorem cause_of_spent (m : Medium) {h : History} (hspent : m.Spent (m.after h)) :
    (∃ x ∈ History.trace inMemory .empty h, 2 ^ 63 ≤ x.2.tasks.length) ∨
      ∃ on id name, (on, .rename id name) ∈ h ∧ name.isWritable = false := by
  by_contra hno
  push Not at hno
  simp only [ne_eq, Bool.not_eq_false] at hno
  rw [(m.after_of_few hno.1 hno.2).1] at hspent
  cases m with
  | memory | database => exact hspent
  | session => exact Bool.false_ne_true hspent

end Medium

/-! ### The new task -/

/-- A task that is added as the last one of a dense group comes behind its siblings. -/
theorem Catalog.Dense.ranked_withTask (h : c.Dense) (ht : t.order = (c.members t.group).length) :
    (c.withTask t).ranked t.group = c.ranked t.group ++ [t] := by
  rw [ranked, members_withTask, if_pos rfl]
  refine IsDense.sortOn_eq ((c.perm_ranked t.group).append_right [t]) ?_
  rw [List.map_append, h.map_order_ranked, List.length_append, List.length_singleton, places_succ,
    length_ranked, ← ht]
  rfl

/-- What an operation that creates a task comes to if it is not refused. -/
theorem Effect.created {c' : Catalog} {name : Text} {home : Uuid} {parent : Option Uuid}
    {a : Answer} (h : Effect on c (.createTask name home parent) (.ok a) c') (hc : c.Sound) :
    ∃ t : Task, a = .ofTask t ∧
      t = ⟨on.freshId, name, home, parent, .pending, (c.ranked t.group).length, on.now, on.now⟩ ∧
      c' = c.withTask t ∧ c'.ranked t.group = c.ranked t.group ++ [t] ∧ t.errors = [] := by
  obtain ⟨ha, rfl, hname, -⟩ := h.of_createTask (h.refusal?_eq_none hc.wellFormed.ids)
  refine ⟨_, Except.ok.inj ha, ?_, rfl, hc.dense.ranked_withTask rfl,
    Task.errors_eq_nil.2 ⟨hname, Int.natCast_nonneg _⟩⟩
  rw [Catalog.length_ranked]
  rfl

/-! ### All media -/

/-- A home with one thing to do. -/
def hallway : History :=
  [(⟨⟨1⟩, ⟨1#128⟩⟩, .createProject "Home"), (⟨⟨2⟩, ⟨2#128⟩⟩, .createTask "Sweep" ⟨1#128⟩ none)]

end Agenda
