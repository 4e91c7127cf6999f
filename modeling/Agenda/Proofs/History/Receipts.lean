import Agenda.Proofs.History.Queries

/-!
# Receipts

An operation that makes or changes a task hands the task back.  Is that what is stored?  Not
always: a task that is created or renamed is handed back as it is stored, but one that is moved,
completed or reopened is handed back as it was read before the change, with its new place or status
put in.  The time of the last change is not put in, so what is handed back bears the old one, and
the stored task bears the time of the operation.

**What a receipt is worth** (`Medium.receipts`).  On every medium and after every history, what is
handed back agrees with what is shown right after in all fields but this one, and `Receipt` says
when it is outdated: if the operation completes a task, or has changed the task that it was asked
to move or to reopen.
-/

namespace Agenda

open Catalog

variable {c c' : Catalog} {on : Occasion} {op : Operation} {t : Task}

namespace Operation

/-- The operation makes or changes a task and hands it back. -/
def HandsBack : Operation → Prop
  | .createTask .. | .rename .. | .reorder .. | .setStatus .. | .complete _ | .reopen _ => True
  | _ => False

/-- The operation hands back what it has given to the store or has got from it. -/
def HandsBackStored : Operation → Prop
  | .createTask .. | .rename .. => True
  | _ => False

/-- The operation completes a task. -/
def Completes (op : Operation) : Prop := ∃ id, op.status? = some (id, .completed)

end Operation

/-- How the task `t` that an operation hands back compares with the task that is stored then. -/
inductive Receipt (on : Occasion) (c : Catalog) (op : Operation) : (t stored : Task) → Prop
  /-- The stored task itself. -/
  | faithful {t : Task} (hop : op.HandsBackStored) : Receipt on c op t t
  /-- The task was as it was asked to be, and has not been changed. -/
  | unchanged {t : Task} (hop : ¬ op.HandsBackStored) (hno : ¬ op.Completes) (ht : t ∈ c.tasks) :
    Receipt on c op t t
  /-- The task has been changed, and what is handed back says that it was last changed before. -/
  | outdated {old t : Task} (hop : ¬ op.HandsBackStored) (hold : old ∈ c.tasks)
    (hid : t.id = old.id) (hupdated : t.updated = old.updated) (hchange : op.Completes ∨ t ≠ old) :
    Receipt on c op t { t with updated := on.now }

namespace Receipt

variable {stored : Task}

theorem id_eq (h : Receipt on c op t stored) : stored.id = t.id := by
  cases h <;> rfl

end Receipt

/-! ### One operation -/

namespace Catalog

/-- A task that moves is stored with its new place and the time of the move. -/
theorem mem_relocated (hids : c.UniqueIds) (ht : t ∈ c.tasks) {place : Int}
    (hmoves : ¬ ((c.ranked t.group).length ≤ 1 ∨
      Siblings.clamp (c.ranked t.group).length place = t.order)) (now : Instant) :
    { t with order := c.placeFor t place, updated := now } ∈ (c.relocated now t place).tasks := by
  have hmany : ¬ (c.ranked t.group).length ≤ 1 := fun h => hmoves (.inl h)
  have hplace : c.placeFor t place = Siblings.clamp (c.ranked t.group).length place := if_neg hmany
  have hbounds := Siblings.clamp_bounds (c.ranked t.group).length (by omega) place
  obtain ⟨hsource, hself⟩ := exists_findIdx_ranked hids ht
  have htarget : (Siblings.clamp (c.ranked t.group).length place).toNat <
      (c.ranked t.group).length := by
    omega
  have hplaced : Task.placed now _ _ = _ :=
    Siblings.placed_renumbering_self (hids.nodup_ranked t.group) hsource htarget
  rw [hself, Int.toNat_of_nonneg hbounds.1] at hplaced
  rw [relocated_of_moves hmoves, hplace]
  exact List.mem_map.2 ⟨t, ht, hplaced⟩

/-- A task that a status is given to is stored with it and with the time of the change. -/
theorem mem_restate_of_mem {ids : List Uuid} (ht : t ∈ c.tasks) (hid : t.id ∈ ids)
    (now : Instant) (status : Status) :
    { t with status := status, updated := now } ∈ (c.restate now status ids).tasks :=
  List.mem_map.2 ⟨t, ht, t.restated_of_mem hid now status⟩

end Catalog

/-- **What is handed back** by an operation that succeeds. -/
theorem Effect.receipt {a : Answer} (h : Effect on c op (.ok a) c') (hids : c.UniqueIds)
    (hop : op.HandsBack) :
    ∃ t stored, a = .ofTask t ∧ stored ∈ c'.tasks ∧ Receipt on c op t stored := by
  cases h with
  | looked _ ha =>
    cases op with
    | createTask | rename | reorder | setStatus | complete | reopen => cases ha
    | _ => exact hop.elim
  | createdProject | deleted | absent => exact hop.elim
  | createdTask =>
    exact ⟨_, _, rfl, List.mem_append_right _ List.mem_cons_self, .faithful trivial⟩
  | @renamed t name ht =>
    exact ⟨_, _, rfl, List.mem_map.2 ⟨t, ht, if_pos rfl⟩, .faithful trivial⟩
  | @moved t place ht =>
    have hno : ¬ (Operation.reorder t.id place).Completes := fun ⟨_, h⟩ => nomatch h
    by_cases hstays : (c.ranked t.group).length ≤ 1 ∨
        Siblings.clamp (c.ranked t.group).length place = t.order
    · have hplace : c.placeFor t place = t.order := by
        unfold placeFor
        split
        · rfl
        · exact hstays.resolve_left ‹_›
      rw [relocated_of_stays hstays, hplace]
      exact ⟨t, t, rfl, ht, .unchanged (fun h => h) hno ht⟩
    · refine ⟨_, _, rfl, mem_relocated hids ht hstays on.now,
        .outdated (fun h => h) ht rfl rfl (.inr fun hsame => ?_)⟩
      have hplace : c.placeFor t place = t.order := congrArg Task.order hsame
      refine hstays (.inr ?_)
      rw [← hplace, placeFor, if_neg fun h => hstays (.inl h)]
  | @given _ t status _ ht hstatus hspreads =>
    have hlate : ¬ op.HandsBackStored := by
      cases op with
      | createTask | rename => cases hstatus
      | _ => exact fun h => h
    cases hspreads with
    | completed hps =>
      refine ⟨_, _, rfl, mem_restate_of_mem ht ?_ _ _,
        .outdated hlate ht rfl rfl (.inl ⟨_, hstatus⟩)⟩
      exact List.mem_append_left _ List.mem_cons_self
    | reopened hdone hps =>
      refine ⟨_, _, rfl, mem_restate_of_mem ht List.mem_cons_self _ _,
        .outdated hlate ht rfl rfl (.inr fun hsame => ?_)⟩
      have hopen : Status.pending = t.status := congrArg Task.status hsame
      rw [hdone] at hopen
      cases hopen
    | pending hopen =>
      have hself : { t with status := .pending } = t := by rw [← hopen]
      have hno : ¬ op.Completes := by
        rintro ⟨id, hcompletes⟩
        rw [hstatus] at hcompletes
        cases hcompletes
      rw [hself]
      exact ⟨t, t, rfl, ht, .unchanged hlate hno ht⟩

/-! ### All media -/

namespace Medium

/-- **What a receipt is worth.**  If an operation that hands back a task succeeds, the task that is
shown for the identifier right after, on any occasion, is the one that was handed back, or differs
from it in the time of its last change alone, as `Receipt` says. -/
theorem receipts (m : Medium) (h : History) (on : Occasion) {op : Operation} (hop : op.HandsBack)
    {a : Answer} (ha : (m.step on op (m.after h)).1 = .ok a) :
    m.Spent (m.after h) ∨ ∃ c t stored, m.records (m.after h) = .ok c ∧ a = .ofTask t ∧
      (∀ later, (m.step later (.task t.id false) (m.after (h ++ [(on, op)]))).1 =
        .ok (.ofTask stored)) ∧
      Receipt on c op t stored := by
  have hcourse := m.course h on op
  rw [after_concat]
  generalize m.step on op (m.after h) = ran at hcourse ha ⊢
  generalize m.after h = s at hcourse ⊢
  cases hcourse with
  | spent hspent => exact .inl hspent
  | undone | unsought => cases ha
  | @kept c c' r hc hfits _ hc' hfits' heffect =>
    have hr : r = .ok a := ha
    rw [hr] at heffect
    obtain ⟨t, stored, rfl, hstored, hreceipt⟩ := heffect.receipt hc.wellFormed.ids hop
    refine .inr ⟨c, t, stored, m.records_holding hc hfits, rfl, fun later => ?_, hreceipt⟩
    -- the stored task is shown by its identifier
    have hno : (Operation.task stored.id false).refusal? later c' = none := noTask?_of_mem hstored
    have hview : (Operation.task stored.id false).view? c' = some (.ofTask stored) := by
      rw [Operation.view?, hc'.wellFormed.ids.find?_eq_some_iff.2 ⟨hstored, rfl⟩]
      rfl
    rw [← hreceipt.id_eq]
    exact m.step_view hc' hfits' (m.seeks_of_sought rfl) later hno hview

/-- A project with a task. -/
def chore : History :=
  [(⟨⟨1⟩, ⟨1#128⟩⟩, .createProject "Home"), (⟨⟨2⟩, ⟨2#128⟩⟩, .createTask "Sweep" ⟨1#128⟩ none)]

/-- The task, completed. -/
def sweeping : Task := ⟨⟨2#128⟩, "Sweep", ⟨1#128⟩, none, .completed, 0, ⟨2⟩, ⟨2⟩⟩

theorem receipts_chore :
    Operation.HandsBack (.complete ⟨2#128⟩) ∧
      (memory.step ⟨⟨3⟩, ⟨3#128⟩⟩ (.complete ⟨2#128⟩) (memory.after chore)).1 =
        .ok (.ofTask sweeping) ∧
      ∃ c t stored, memory.records (memory.after chore) = .ok c ∧
        Answer.ofTask sweeping = .ofTask t ∧
        (∀ later, (memory.step later (.task t.id false)
          (memory.after (chore ++ [(⟨⟨3⟩, ⟨3#128⟩⟩, .complete ⟨2#128⟩)]))).1 =
            .ok (.ofTask stored)) ∧
        Receipt ⟨⟨3⟩, ⟨3#128⟩⟩ c (.complete ⟨2#128⟩) t stored := by
  have hanswer : (memory.step ⟨⟨3⟩, ⟨3#128⟩⟩ (.complete ⟨2#128⟩) (memory.after chore)).1 =
      .ok (.ofTask sweeping) := rfl
  have hop : Operation.HandsBack (.complete ⟨2#128⟩) := trivial
  exact ⟨hop, hanswer,
    (receipts memory chore ⟨⟨3⟩, ⟨3#128⟩⟩ hop hanswer).resolve_left fun hspent => hspent⟩

/-- A task that is completed is not handed back as it is stored. -/
theorem chore_outdated :
    ¬ ∀ a, (memory.step ⟨⟨3⟩, ⟨3#128⟩⟩ (.complete ⟨2#128⟩) (memory.after chore)).1 = .ok a →
      (memory.step ⟨⟨4⟩, ⟨4#128⟩⟩ (.task ⟨2#128⟩ false)
        (memory.after (chore ++ [(⟨⟨3⟩, ⟨3#128⟩⟩, .complete ⟨2#128⟩)]))).1 = .ok a := by
  intro h
  have hshown : Except.ok (Answer.ofTask { sweeping with updated := ⟨3⟩ }) =
      .ok (Answer.ofTask sweeping) := h (.ofTask sweeping) rfl
  injection hshown with hsame
  injection hsame with htree
  injection htree with htask
  exact absurd (congrArg Task.updated htask) (by decide)

end Medium

end Agenda
