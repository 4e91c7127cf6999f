import Agenda.Proofs.History.Media
import Agenda.Proofs.Operation.Dated

/-!
# No silent change

Each task says when it was created and when it was last changed.  On every medium and after every
history, one more operation leaves a task alone or dates the change (`Task.Dated`), and all else
about the task stays for ever: its identifier, its project, its parent and the time of its creation.

**The dates can be relied on** (`Medium.changes_dated`).  If the clock never goes back, no task was
changed before it was created or after the last operation, and what is stored with an identifier
was never changed earlier than what has been stored with it before.  This holds across a removal as
well: a task that gets the identifier of a removed one is the younger of the two.

What one operation keeps is said by where the stored tasks come from (`Medium.step_stems`); the
dates follow by an induction on the history (`Medium.timed_after`).
-/

namespace Agenda

instance : Preorder Instant where
  le_refl a := Int.le_refl a.micros
  le_trans _ _ _ h h' := Int.le_trans h h'
  lt_iff_le_not_ge _ _ := Int.lt_iff_le_and_not_ge

namespace History

/-- The clock never goes back. -/
def Chronological (h : History) : Prop := h.Pairwise fun o o' => o.1.now ≤ o'.1.now

instance (h : History) : Decidable h.Chronological :=
  inferInstanceAs (Decidable (h.Pairwise fun o o' => o.1.now ≤ o'.1.now))

namespace Chronological

variable {h later : History} {o : Occasion × Operation}

theorem init (hc : (h ++ later).Chronological) : h.Chronological :=
  (List.pairwise_append.1 hc).1

/-- What has been done was done before what comes. -/
theorem le (hc : (h ++ [o]).Chronological) : ∀ o' ∈ h, o'.1.now ≤ o.1.now :=
  fun o' ho' => (List.pairwise_append.1 hc).2.2 o' ho' o List.mem_cons_self

/-- Nothing was done after the last operation. -/
theorem exists_last (hc : h.Chronological) (ho : o ∈ h) :
    ∃ last ∈ h.getLast?, o.1.now ≤ last.1.now := by
  rcases List.eq_nil_or_concat' h with rfl | ⟨init, last, rfl⟩
  · cases ho
  refine ⟨last, List.getLast?_concat, ?_⟩
  rcases List.mem_append.1 ho with ho | ho
  · exact hc.le o ho
  · rw [List.mem_singleton.1 ho]

end Chronological

end History

/-- The dates of a task that is stored after a history: it was changed last by one of the
operations, and not before it was created. -/
structure Task.Timed (h : History) (t : Task) : Prop where
  changed : ∃ o ∈ h, t.updated = o.1.now
  ordered : t.created ≤ t.updated

namespace Task.Timed

variable {h : History} {o : Occasion × Operation} {t t' : Task}

/-- The last change is not after an operation that comes. -/
theorem le (ht : t.Timed h) (hc : (h ++ [o]).Chronological) : t.updated ≤ o.1.now := by
  obtain ⟨o', ho', heq⟩ := ht.changed
  rw [heq]
  exact hc.le o' ho'

/-- No operation gives a task an earlier date. -/
theorem le_dated (ht : t.Timed h) (hc : (h ++ [o]).Chronological) (hdated : t.Dated o.1.now t') :
    t.updated ≤ t'.updated := by
  rcases hdated.updated with heq | heq
  · exact heq.ge
  · exact (ht.le hc).trans heq.ge

/-- **One more operation.** -/
theorem step {c : Catalog} (hall : ∀ t ∈ c.tasks, t.Timed h) (hc : (h ++ [o]).Chronological)
    (horigin : c.Origin o.1.now t') : t'.Timed (h ++ [o]) := by
  cases horigin with
  | @stored t ht hdated =>
    have htimed := hall t ht
    refine ⟨?_, ?_⟩
    · rcases hdated.updated with heq | heq
      · obtain ⟨o', ho', hchanged⟩ := htimed.changed
        exact ⟨o', List.mem_append_left _ ho', heq.trans hchanged⟩
      · exact ⟨o, List.mem_append_right _ List.mem_cons_self, heq⟩
    · rw [hdated.created]
      exact htimed.ordered.trans (htimed.le_dated hc hdated)
  | new _ hcreated hupdated =>
    refine ⟨⟨o, List.mem_append_right _ List.mem_cons_self, hupdated⟩, ?_⟩
    exact (hcreated.trans hupdated.symm).le

end Task.Timed

namespace Medium

/-- Where the tasks on a medium come from after one more operation. -/
theorem step_stems (m : Medium) (h : History) (on : Occasion) (op : Operation) :
    ∃ c c', c.UniqueIds ∧ m.records (m.after h) = .ok c ∧
      m.records (m.after (h ++ [(on, op)])) = .ok c' ∧ c.Stems on.now c' := by
  have hcourse := m.course h on op
  rw [after_concat]
  generalize m.step on op (m.after h) = ran at hcourse ⊢
  generalize m.after h = s at hcourse ⊢
  cases hcourse with
  | @kept c c' r hc hfits _ hc' hfits' heffect =>
    exact ⟨c, c', hc.wellFormed.ids, m.records_holding hc hfits, m.records_holding hc' hfits',
      heffect.origin⟩
  | @undone c hc hfits _ _ =>
    refine ⟨c, ?_⟩
    have hread := m.records_holding hc hfits
    rcases m.recovers_or_spent with hrecovers | hspends
    · refine ⟨c, hc.wellFormed.ids, hread, ?_, .refl on.now c⟩
      rw [hrecovers c]
      exact hread
    · exact ⟨.empty, hc.wellFormed.ids, hread, records_undone (hspends c), fun _ ht => nomatch ht⟩
  | @unsought c _ hc hfits _ _ _ =>
    have hread := m.records_holding hc hfits
    exact ⟨c, c, hc.wellFormed.ids, hread, hread, .refl on.now c⟩
  | spent hspent =>
    have hempty := records_undone hspent
    exact ⟨.empty, .empty, List.nodup_nil, hempty, hempty, .refl on.now .empty⟩

/-- **The dates of all tasks** after a history on which the clock has not gone back. -/
theorem timed_after (m : Medium) {h : History} (hchrono : h.Chronological) {c : Catalog}
    (hread : m.records (m.after h) = .ok c) : ∀ t ∈ c.tasks, t.Timed h := by
  induction h using List.reverseRecOn generalizing c with
  | nil =>
    have hempty : m.records (m.after []) = .ok .empty := by
      change m.records m.start = .ok .empty
      rw [m.start_eq, m.records_holding .empty (Catalog.fits_empty _)]
    rw [hempty, Except.ok.injEq] at hread
    subst hread
    exact fun _ ht => nomatch ht
  | append_singleton h o ih =>
    obtain ⟨c₀, c', -, hread₀, hread', hstems⟩ := m.step_stems h o.1 o.2
    rw [hread, Except.ok.injEq] at hread'
    subst hread'
    exact fun t ht => .step (ih hchrono.init hread₀) hchrono (hstems t ht)

/-- What is stored with an identifier was changed last no earlier than what has been stored with it
before. -/
theorem updated_le (m : Medium) {h later : History} (hchrono : (h ++ later).Chronological)
    {c c' : Catalog} (hread : m.records (m.after h) = .ok c)
    (hread' : m.records (m.after (h ++ later)) = .ok c') {t t' : Task} (ht : t ∈ c.tasks)
    (ht' : t' ∈ c'.tasks) (hid : t'.id = t.id) : t.updated ≤ t'.updated := by
  induction later using List.reverseRecOn generalizing c' t' with
  | nil =>
    obtain ⟨c₀, hsound, hread₀⟩ := m.records_after h
    rw [List.append_nil, hread, Except.ok.injEq] at hread'
    rw [hread, Except.ok.injEq] at hread₀
    subst hread' hread₀
    rw [hsound.wellFormed.ids.eq ht' ht hid]
  | append_singleton later o ih =>
    rw [← List.append_assoc] at hchrono hread'
    obtain ⟨c₀, c₁, -, hread₀, hread₁, hstems⟩ := m.step_stems (h ++ later) o.1 o.2
    rw [hread', Except.ok.injEq] at hread₁
    subst hread₁
    cases hstems t' ht' with
    | @stored s hs hdated =>
      have hbefore := ih hchrono.init hread₀ hs (hdated.id.symm.trans hid)
      have htimed := m.timed_after hchrono.init hread₀ s hs
      exact hbefore.trans (htimed.le_dated hchrono hdated)
    | new _ _ hupdated =>
      -- the task that the identifier has been used for before is older
      obtain ⟨o', ho', hchanged⟩ := (m.timed_after hchrono.init.init hread t ht).changed
      rw [hchanged, hupdated]
      exact hchrono.le o' (List.mem_append_left _ ho')

/-- **The dates can be relied on**, on every medium.  After every history an operation leaves each
task as it is, or changes its name, status or place and dates the change.  If the clock does not go
back, a task is created, changed and looked at in this order, and never gets an earlier date. -/
theorem changes_dated (m : Medium) (h later : History) (on : Occasion) (op : Operation) :
    (∃ c c', m.records (m.after h) = .ok c ∧ m.records (m.after (h ++ [(on, op)])) = .ok c' ∧
      ∀ t ∈ c.tasks, ∀ t' ∈ c'.tasks, t'.id = t.id → t.Dated on.now t') ∧
    ((h ++ later).Chronological → ∃ c c', m.records (m.after h) = .ok c ∧
      m.records (m.after (h ++ later)) = .ok c' ∧
      (∀ t' ∈ c'.tasks, t'.created ≤ t'.updated ∧
        ∃ last ∈ (h ++ later).getLast?, t'.updated ≤ last.1.now) ∧
      ∀ t ∈ c.tasks, ∀ t' ∈ c'.tasks, t'.id = t.id → t.updated ≤ t'.updated) := by
  constructor
  · obtain ⟨c, c', hids, hread, hread', hstems⟩ := m.step_stems h on op
    exact ⟨c, c', hread, hread', fun t ht t' ht' hid => hstems.dated hids ht ht' hid⟩
  · intro hchrono
    obtain ⟨c, -, hread⟩ := m.records_after h
    obtain ⟨c', -, hread'⟩ := m.records_after (h ++ later)
    refine ⟨c, c', hread, hread', fun t' ht' => ?_, fun t ht t' ht' hid =>
      m.updated_le hchrono hread hread' ht ht' hid⟩
    have htimed := m.timed_after hchrono hread' t' ht'
    obtain ⟨o, ho, hchanged⟩ := htimed.changed
    obtain ⟨last, hlast, hle⟩ := hchrono.exists_last ho
    exact ⟨htimed.ordered, last, hlast, hchanged ▸ hle⟩

/-- A task with one below it. -/
def spring : History :=
  [(⟨⟨1⟩, ⟨1#128⟩⟩, .createProject "Home"), (⟨⟨2⟩, ⟨2#128⟩⟩, .createTask "Sweep" ⟨1#128⟩ none),
    (⟨⟨3⟩, ⟨3#128⟩⟩, .createTask "Mop" ⟨1#128⟩ (some ⟨2#128⟩))]

/-- The task below is completed and removed, and its identifier is given again. -/
def summer : History :=
  [(⟨⟨4⟩, ⟨4#128⟩⟩, .complete ⟨3#128⟩), (⟨⟨5⟩, ⟨5#128⟩⟩, .delete ⟨3#128⟩),
    (⟨⟨5⟩, ⟨3#128⟩⟩, .createTask "Mow" ⟨1#128⟩ none)]

theorem changes_dated_summer :
    (spring ++ summer).Chronological ∧ ∃ c c', memory.records (memory.after spring) = .ok c ∧
      memory.records (memory.after (spring ++ summer)) = .ok c' ∧
      (∀ t' ∈ c'.tasks, t'.created ≤ t'.updated ∧
        ∃ last ∈ (spring ++ summer).getLast?, t'.updated ≤ last.1.now) ∧
      ∀ t ∈ c.tasks, ∀ t' ∈ c'.tasks, t'.id = t.id → t.updated ≤ t'.updated := by
  have hchrono : (spring ++ summer).Chronological := by decide
  exact ⟨hchrono, (changes_dated memory spring summer ⟨⟨4⟩, ⟨4#128⟩⟩ (.complete ⟨3#128⟩)).2 hchrono⟩

end Medium

end Agenda
