import Agenda.Proofs.History.Media
import Agenda.Proofs.Operation.Likeness

/-!
# Arrangement and completion

Some operations arrange tasks, that is, they rename or move them (`Operation.arranges`); some
complete or reopen them (`Operation.completes`).  Neither kind takes notice of the other.

**Arrangement and completion are separate** (`Medium.separate`).  If all operations of one kind are
left out of a history, all others succeed and fail as before, and in the end the stored tasks are
the same but for the fields that the operations left out write.  There is one exception: in a
session that all operations share, an attempt to give a task a name that cannot be written undoes
everything, and what follows fails as well.

The proof runs both histories side by side.  At all times the two catalogs look alike through a
sight that hides those fields (`Task.marked`, `Task.arranged`): an operation that is left out is not
seen (`Medium.Likens.step_left`), and any other does the same to both (`Medium.Likens.step_both`).
Sizes of groups are seen, and with them whether there is room for another task
(`Catalog.Alike.allows_iff`); so a medium that sets a limit refuses the same operations in both
histories.
-/

namespace Agenda

variable {c d : Catalog} {b : Task → Task} {gone : Operation → Bool} {m : Medium}

/-! ### Kinds of operations -/

namespace Operation

/-- The operation renames or moves a task. -/
def arranges : Operation → Bool
  | .rename .. | .reorder .. => true
  | _ => false

/-- The operation completes or reopens a task. -/
def completes : Operation → Bool
  | .setStatus .. | .complete _ | .reopen _ => true
  | _ => false

end Operation

/-! ### Two sights -/

/-- A task but for its name and its place. -/
def Task.marked (t : Task) : Task := { t with name := "", order := 0, updated := t.created }

/-- A task but for its status. -/
def Task.arranged (t : Task) : Task := { t with status := .pending, updated := t.created }

/-- All projects. -/
def everywhere (_ : Uuid) : Bool := true

/-- Operations that are not seen through a sight, which hides nothing that other operations depend
on. -/
structure Unnoticed (b : Task → Task) (gone : Operation → Bool) : Prop extends Sight b where
  unseen : ∀ {on c op r c'}, gone op → Effect on c op r c' → c.Alike everywhere b c'
  /-- They create no task. -/
  creates : ∀ op, gone op → op.newGroup? = none
  sees : ∀ op, gone op = false → op.Sees b

theorem sight_marked : Sight Task.marked where
  id _ := rfl
  parent _ := rfl
  project _ := rfl
  name h _ := h
  status h st := congrArg (fun t : Task => { t with status := st }) h
  order h _ := h
  updated h _ := h

theorem sight_arranged : Sight Task.arranged where
  id _ := rfl
  parent _ := rfl
  project _ := rfl
  name h n := congrArg (fun t : Task => { t with name := n }) h
  status h _ := h
  order h o := congrArg (fun t : Task => { t with order := o }) h
  updated h _ := h

/-- Where names and places are hidden, operations that arrange tasks are not seen. -/
theorem unnoticed_arranges : Unnoticed Task.marked Operation.arranges where
  toSight := sight_marked
  unseen := by
    intro on c op r c' hgone h
    have hhides : HidesOrder Task.marked := fun _ _ _ => rfl
    cases h with
    | refused | looked | absent => exact .refl ..
    | createdProject | createdTask | deleted => cases hgone
    | renamed =>
      refine .of_revise ((KeepsTree.renamed on.now _).only _) fun t _ _ => ?_
      unfold Catalog.only
      split <;> rfl
    | moved => exact hhides.of_relocated ..
    | given _ hop =>
      cases op with
      | rename | reorder => cases hop
      | _ => cases hgone
  creates := by
    intro op hgone
    cases op with
    | createTask => cases hgone
    | _ => rfl
  sees := by
    intro op hop
    cases op with
    | rename | reorder => cases hop
    | setStatus | complete | reopen => exact fun _ => rfl
    | delete => exact .inr fun _ _ _ => rfl
    | _ => trivial

/-- Where statuses are hidden, operations that complete or reopen tasks are not seen. -/
theorem unnoticed_completes : Unnoticed Task.arranged Operation.completes where
  toSight := sight_arranged
  unseen := by
    intro on c op r c' hgone h
    have hhides : HidesStatus Task.arranged := fun _ _ _ => rfl
    cases h with
    | refused | looked | absent => exact .refl ..
    | createdProject | createdTask | renamed | moved | deleted => cases hgone
    | given _ _ hspreads => exact hhides.of_spreads _ hspreads
  creates := by
    intro op hgone
    cases op with
    | createTask => cases hgone
    | _ => rfl
  sees := by
    intro op hop
    cases op with
    | setStatus | complete | reopen => cases hop
    | reorder => exact fun _ => rfl
    | delete => exact .inl fun _ => rfl
    | _ => trivial

/-! ### Limits -/

/-- In dense catalogs that look alike there is the same room for an operation. -/
theorem Catalog.Alike.allows_iff (h : c.Alike everywhere b d) (hb : Sight b) {on : Occasion}
    {op : Operation} (hrefusal : op.refusal? on c = op.refusal? on d) (B : Nat) :
    op.Fits on B c ↔ op.Fits on B d := by
  have hlength (g : Group) : (c.members g).length = (d.members g).length :=
    h.length_members hb (fun _ _ _ => rfl) fun _ _ _ => rfl
  constructor
  · intro hfits
    exact ⟨fun g => hlength g ▸ hfits.groups g,
      fun hno g hg => hlength g ▸ hfits.room (hrefusal.trans hno) g hg,
      fun hno => hfits.writable (hrefusal.trans hno)⟩
  · intro hfits
    exact ⟨fun g => hlength g ▸ hfits.groups g,
      fun hno g hg => hlength g ▸ hfits.room (hrefusal.symm.trans hno) g hg,
      fun hno => hfits.writable (hrefusal.symm.trans hno)⟩

/-! ### Side by side -/

/-- Which operations of a history succeed, and what the others fail with. -/
def History.verdicts {σ : Type} (step : Step σ) (s : σ) (h : History) :
    List ((Occasion × Operation) × Except Failure Unit) :=
  h.zip ((answers step s h).map fun r => r.map fun _ => ())

theorem History.verdicts_cons {σ : Type} (step : Step σ) (s : σ) (on : Occasion) (op : Operation)
    (rest : History) : verdicts step s ((on, op) :: rest) =
      ((on, op), (step on op s).1.map fun _ => ()) :: verdicts step (step on op s).2 rest := rfl

namespace Medium

/-- Two states of a medium that look alike, or one that is spent. -/
inductive Likens (m : Medium) (b : Task → Task) : m.State → m.State → Prop
  | alike {c d : Catalog} (hc : c.Sound) (hd : d.Sound) (hfits : c.Fits m.limit)
    (hfits' : d.Fits m.limit) (h : c.Alike everywhere b d) :
    Likens m b (m.holding c) (m.holding d)
  | spent {c : Catalog} (h : m.Spent (m.undone c)) :
    Likens m b (m.undone c) (m.undone c)

/-- An operation that is left out is not seen, unless it spends the medium with a name that cannot
be written. -/
theorem Likens.step_left (hb : Unnoticed b gone) {s s' : m.State} (h : m.Likens b s s')
    (on : Occasion) {op : Operation} (hgone : gone op) : m.Likens b (m.step on op s).2 s' ∨
      (∃ c, (m.step on op s).2 = m.undone c ∧ m.Spent (m.undone c)) ∧
        ∃ name, op.newName? = some name ∧ name.isWritable = false := by
  cases h with
  | @alike c d hc hd hfits hfits' h =>
    have hafter := (leaves_inMemory hc on op).sound
    have hunseen := hb.unseen hgone (effect_inMemory hc.wellFormed on op)
    rcases m.step_holding hc hfits on op with
      ⟨-, hkept, hstep⟩ | ⟨-, hover, hstep⟩ | ⟨-, _, -, -, hstep⟩ <;> rw [hstep]
    · exact .inl (.alike hafter hd hkept hfits' (hunseen.symm.trans h))
    · rcases m.recovers_or_spent with hrecovers | hspends
      · rw [hrecovers c]
        exact .inl (.alike hc hd hfits hfits' h)
      · -- there is room for what creates no task
        refine .inr ⟨⟨c, rfl, hspends c⟩, ?_⟩
        by_contra hno
        refine hover ((inMemory_fits_iff hc hfits).2 fun B hB =>
          ⟨((hc.dense.fits_iff.1 hfits) B hB).1, fun _ g hg => ?_, fun _ name hname => ?_⟩)
        · rw [hb.creates op hgone] at hg
          cases hg
        · exact Bool.of_not_eq_false fun hbad => hno ⟨name, hname, hbad⟩
    · exact .inl (.alike hc hd hfits hfits' h)
  | spent h =>
    rw [step_undone h]
    exact .inl (.spent h)

/-- An operation that stays succeeds or fails in both, and afterwards they still look alike. -/
theorem Likens.step_both (hb : Unnoticed b gone) {s s' : m.State} (h : m.Likens b s s')
    (on : Occasion) {op : Operation} (hstays : gone op = false) :
    (m.step on op s).1.map (fun _ => ()) = (m.step on op s').1.map (fun _ => ()) ∧
      m.Likens b (m.step on op s).2 (m.step on op s').2 := by
  cases h with
  | @alike c d hc hd hfits hfits' h =>
    have heffect := effect_inMemory hc.wellFormed on op
    have heffect' := effect_inMemory hd.wellFormed on op
    have hfree := h.stored_iff hb.toSight (u := on.freshId) (fun _ _ _ => rfl) fun _ _ _ => rfl
    have hrefusal : op.refusal? on c = op.refusal? on d :=
      Operation.refusal?_congr h hb.toSight hc.wellFormed.ids hd.wellFormed.ids (fun _ _ => rfl)
        (fun _ _ => rfl) hfree
    have hverdict :
        (inMemory on op c).1.map (fun _ => ()) = (inMemory on op d).1.map fun _ => () := by
      rw [heffect.verdict hc.wellFormed.ids, heffect'.verdict hd.wellFormed.ids, Operation.verdict,
        Operation.verdict, hrefusal]
    have hafter := (heffect.alike h hb.toSight hc.wellFormed hd.wellFormed (fun _ _ => rfl)
      (fun _ _ => rfl) hfree (hb.sees op hstays) heffect').1
    -- so what is left fits in both or in neither
    have hiff : (inMemory on op c).2.Fits m.limit ↔ (inMemory on op d).2.Fits m.limit := by
      rw [inMemory_fits_iff hc hfits, inMemory_fits_iff hd hfits']
      exact forall₂_congr fun B _ => h.allows_iff hb.toSight hrefusal B
    rcases m.seeks_or op with hseeks | ⟨hm, name, hsought, hname⟩
    · by_cases hkept : (inMemory on op c).2.Fits m.limit
      · rw [step_of_fits hc hfits hseeks hkept, step_of_fits hd hfits' hseeks (hiff.1 hkept)]
        exact ⟨hverdict, .alike (leaves_inMemory hc on op).sound (leaves_inMemory hd on op).sound
          hkept (hiff.1 hkept) hafter⟩
      · rw [step_of_not_fits hc hfits hseeks hkept,
          step_of_not_fits hd hfits' hseeks fun hkept' => hkept (hiff.2 hkept')]
        refine ⟨rfl, ?_⟩
        cases m with
        | memory | database => exact .alike hc hd hfits hfits' h
        | session => exact .spent (c := c) rfl
    · rw [step_unsought hm hsought hname c on, step_unsought hm hsought hname d on]
      exact ⟨rfl, .alike hc hd hfits hfits' h⟩
  | spent h =>
    rw [step_undone h]
    exact ⟨rfl, .spent h⟩

/-- **Side by side.**  The operations that stay succeed and fail in both histories alike, and in the
end the two states look alike, unless a name that cannot be written has spent the first one. -/
theorem Likens.run (hb : Unnoticed b gone) (h : History) {s s' : m.State} (hs : m.Likens b s s') :
    ((History.verdicts m.step s h).filter (fun v => !gone v.1.2) =
        History.verdicts m.step s' (h.filter fun o => !gone o.2) ∧
      m.Likens b (History.after m.step s h)
        (History.after m.step s' (h.filter fun o => !gone o.2))) ∨
      m.Spent (History.after m.step s h) ∧ ∃ o ∈ h, gone o.2 ∧
        ∃ name, o.2.newName? = some name ∧ name.isWritable = false := by
  induction h generalizing s s' with
  | nil => exact .inl ⟨rfl, hs⟩
  | cons o rest ih =>
    obtain ⟨on, op⟩ := o
    have hlater : (m.Spent (History.after m.step (m.step on op s).2 rest) ∧
          ∃ o ∈ rest, gone o.2 ∧ ∃ name, o.2.newName? = some name ∧ name.isWritable = false) →
        m.Spent (History.after m.step s ((on, op) :: rest)) ∧ ∃ o ∈ (on, op) :: rest,
          gone o.2 ∧ ∃ name, o.2.newName? = some name ∧ name.isWritable = false :=
      And.imp_right fun ⟨o, ho, hblame⟩ => ⟨o, List.mem_cons_of_mem _ ho, hblame⟩
    cases hop : gone op with
    | true =>
      have hleft : ((on, op) :: rest).filter (fun o => !gone o.2) =
          rest.filter fun o => !gone o.2 :=
        List.filter_cons_of_neg (by simp [hop])
      rw [hleft, History.verdicts_cons, List.filter_cons_of_neg (by simp [hop])]
      rcases hs.step_left hb on hop with hnext | ⟨⟨c, hstep, hspent⟩, hblame⟩
      · exact (ih hnext).imp_right hlater
      · refine .inr ⟨?_, _, List.mem_cons_self, hop, hblame⟩
        change m.Spent (History.after m.step (m.step on op s).2 rest)
        rw [hstep, after_undone hspent]
        exact hspent
    | false =>
      have hstays : ((on, op) :: rest).filter (fun o => !gone o.2) =
          (on, op) :: rest.filter fun o => !gone o.2 :=
        List.filter_cons_of_pos (by simp [hop])
      obtain ⟨hverdict, hnext⟩ := hs.step_both hb on hop
      rw [hstays, History.verdicts_cons, History.verdicts_cons,
        List.filter_cons_of_pos (by simp [hop]), hverdict]
      refine (ih hnext).imp (fun ⟨hverdicts, hend⟩ => ?_) hlater
      rw [hverdicts]
      exact ⟨rfl, hend⟩

/-- A history goes on alike without some operations: all others succeed and fail as before, and in
the end there are the same projects and, as far as is shown of them, the same tasks. -/
structure GoesOnWithout {α : Type} (m : Medium) (gone : Operation → Bool) (shown : Task → α)
    (h : History) : Prop where
  verdicts : (History.verdicts m.step m.start h).filter (fun v => !gone v.1.2) =
    History.verdicts m.step m.start (h.filter fun o => !gone o.2)
  records : ∃ c d, m.records (m.after h) = .ok c ∧
    m.records (m.after (h.filter fun o => !gone o.2)) = .ok d ∧
    c.projects = d.projects ∧ c.tasks.map shown = d.tasks.map shown

/-- A history goes on without operations that are not seen, unless one of them has spent the medium
with a name that cannot be written. -/
theorem goesOnWithout_or {α : Type} (m : Medium) (hb : Unnoticed b gone) {shown : Task → α}
    (hshown : ∀ t, shown (b t) = shown t) (h : History) : m.GoesOnWithout gone shown h ∨
      m.Spent (m.after h) ∧ ∃ o ∈ h, gone o.2 ∧
        ∃ name, o.2.newName? = some name ∧ name.isWritable = false := by
  have hstart : m.Likens b m.start m.start := by
    rw [m.start_eq]
    exact .alike .empty .empty (Catalog.fits_empty _) (Catalog.fits_empty _) (.refl ..)
  refine (hstart.run hb h).imp_left fun ⟨hverdicts, hend⟩ => ⟨hverdicts, ?_⟩
  change m.Likens b (m.after h) (m.after (h.filter fun o => !gone o.2)) at hend
  generalize m.after h = s at hend ⊢
  generalize m.after (h.filter fun o => !gone o.2) = s' at hend ⊢
  cases hend with
  | @alike c d hc hd hfits hfits' hcd =>
    refine ⟨c, d, m.records_holding hc hfits, m.records_holding hd hfits', hcd.projects, ?_⟩
    have hseen (e : Catalog) : (e.seen everywhere b).map shown = e.tasks.map shown := by
      have hall : e.tasks.filter (everywhere ·.project) = e.tasks :=
        List.filter_eq_self.2 fun _ _ => rfl
      rw [Catalog.seen, hall, List.map_map]
      exact List.map_congr_left fun t _ => hshown t
    rw [← hseen c, ← hseen d, hcd.tasks]
  | spent hspent =>
    have hrecords := records_undone hspent
    exact ⟨_, _, hrecords, hrecords, rfl, rfl⟩

/-- **Arrangement and completion are separate.**  Without the operations that rename and move tasks,
the statuses of all tasks come out the same; without those that complete and reopen tasks, their
names and orders do; and in either case their parents and projects do, and all other operations
succeed and fail as before.  Only a session for all operations is spent by a renaming to a name that
cannot be written, and is not spent without it. -/
theorem separate (m : Medium) (h : History) :
    (m.GoesOnWithout Operation.arranges (fun t => (t.id, t.status, t.parent, t.project)) h ∨
        m.Spent (m.after h) ∧
          ∃ on id name, (on, Operation.rename id name) ∈ h ∧ name.isWritable = false) ∧
      m.GoesOnWithout Operation.completes
        (fun t => (t.id, t.name, t.order, t.parent, t.project)) h := by
  constructor
  · refine (m.goesOnWithout_or unnoticed_arranges (fun _ => rfl) h).imp_right
      (And.imp_right fun ⟨⟨on, op⟩, ho, _, name, hname, hbad⟩ => ?_)
    cases op with
    | rename id name' =>
      cases hname
      exact ⟨on, id, name, ho, hbad⟩
    | _ => cases hname
  · refine (m.goesOnWithout_or unnoticed_completes (fun _ => rfl) h).resolve_right ?_
    rintro ⟨-, ⟨on, op⟩, -, hgone, name, hname, -⟩
    cases op with
    | rename => cases hgone
    | _ => cases hname

end Medium

end Agenda
