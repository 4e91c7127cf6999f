import Agenda.Proofs.History.Media
import Agenda.Proofs.Operation.Likeness

/-!
# Independence of projects

Two operations that write tasks of different projects can change places.

**Projects are independent** (`Medium.projects_independent`).  After every history, on every medium,
an operation on one project and an operation on another answer the same in either order and leave
the same records, and neither changes a task of another project.  The one thing that they can have
in common is a session for both: if the one leaves what the session cannot take, a number that does
not fit or a name that cannot be written, that undoes the other, in either order.

An operation on a project is not seen in any other project (`Effect.unseen`), and looks at its own
project only (`Effect.alike`).  So each of the two operations finds after the other what it finds
before it, and that includes how large its orders become, and so whether a medium can take what it
leaves (`Medium.fits_iff`).  The records of the two orders agree project by project, which is all
there is to agree on (`Catalog.perm_of_sameIn`).
-/

namespace Agenda

variable {c c' d d' : Catalog} {on : Occasion} {op : Operation} {P Q : Uuid} {S : Uuid → Bool}
  {m : Medium} {r r' : Except Failure Answer}

/-! ### Records, project by project -/

namespace Catalog

/-- The tasks of a project are the same. -/
def SameIn (project : Uuid) (c d : Catalog) : Prop :=
  c.tasks.filter (·.project = project) = d.tasks.filter (·.project = project)

theorem SameIn.symm (h : SameIn P c d) : SameIn P d c := Eq.symm h

theorem SameIn.trans {e : Catalog} (h : SameIn P c d) (h' : SameIn P d e) : SameIn P c e :=
  Eq.trans h h'

/-- The same projects and, in some order, the same tasks, those of one project in one order. -/
structure SameRecords (c d : Catalog) : Prop where
  projects : c.projects = d.projects
  tasks : c.tasks.Perm d.tasks
  each : ∀ project, SameIn project c d

/-- If the tasks of each project are the same, all tasks are the same. -/
theorem perm_of_sameIn (h : ∀ project, SameIn project c d) : c.tasks.Perm d.tasks := by
  rw [List.perm_iff_count]
  intro t
  have hcount (ts : List Task) :
      (ts.filter (·.project = t.project)).count t = ts.count t :=
    List.count_filter (decide_eq_true rfl)
  rw [← hcount c.tasks, ← hcount d.tasks, h t.project]

namespace Alike

theorem sameIn (h : c.Alike S id d) (hS : S P) : SameIn P c d := by
  have hproject (e : Catalog) :
      (e.seen S id).filter (·.project = P) = e.tasks.filter (·.project = P) := by
    rw [seen, List.map_id, List.filter_filter]
    refine List.filter_congr fun t _ => ?_
    rw [Bool.eq_iff_iff, Bool.and_eq_true, decide_eq_true_eq]
    exact ⟨fun hboth => hboth.1, fun hP => ⟨hP, hP ▸ hS⟩⟩
  rw [SameIn, ← hproject c, ← hproject d, h.tasks]

theorem mem (h : c.Alike S id d) {t : Task} (ht : t ∈ c.tasks) (hS : S t.project) :
    t ∈ d.tasks := by
  obtain ⟨u, hu⟩ := h.exists_twin ht hS
  have hsame : t = u := hu.same
  rw [hsame]
  exact hu.right

/-- A catalog keeps a limit if others do that have the tasks of some projects and those of the
rest. -/
theorem fits {limit : Option Nat} (h : c.Alike S id d) (h' : c.Alike (fun q => !S q) id d')
    (hd : d.Fits limit) (hd' : d'.Fits limit) : c.Fits limit := by
  intro B hB t ht
  by_cases hS : S t.project
  · exact hd B hB t (h.mem ht hS)
  · exact hd' B hB t (h'.mem ht (by simpa using hS))

end Alike

end Catalog

/-! ### Operations on one project -/

/-- The operation writes tasks of a project: it creates a task there, or changes or removes one, and
it names only tasks that are stored there. -/
structure Operation.Within (c : Catalog) (project : Uuid) (op : Operation) : Prop where
  writes : op.WritesTasks
  home : ∀ q, op.home? = some q → q = project
  named : ∀ u ∈ op.named, ∃ t ∈ c.tasks, t.id = u ∧ t.project = project

namespace Operation.Within

theorem touches (h : op.Within c P) (hids : c.UniqueIds) {q : Uuid} (hq : op.Touches c q) :
    q = P := by
  rcases hq with hhome | ⟨t, ht, hmem, rfl⟩
  · exact h.home q hhome
  · obtain ⟨s, hs, hid, hproject⟩ := h.named _ hmem
    rw [← hids.eq hs ht hid, hproject]

/-- An operation within a project looks for none by its name. -/
theorem seeks (h : op.Within c P) (m : Medium) : m.Seeks op := by
  refine m.seeks_of_sought ?_
  have hwrites := h.writes
  cases op with
  | createProject | projectNamed => exact hwrites.elim
  | _ => rfl

/-- An operation stays within its project when the tasks of the project stay. -/
theorem of_alike (h : op.Within c P) (halike : c.Alike (· = P) id d) : op.Within d P where
  writes := h.writes
  home := h.home
  named := by
    intro u hu
    obtain ⟨t, ht, hid, hproject⟩ := h.named u hu
    exact ⟨t, halike.mem ht (decide_eq_true hproject), hid, hproject⟩

end Operation.Within

/-- No task that is new after an operation has another identifier than the new one. -/
theorem Effect.id_mem (h : Effect on c op r c') :
    ∀ t ∈ c'.tasks, t.id = on.freshId ∨ ∃ s ∈ c.tasks, s.id = t.id := by
  have hrevise {c : Catalog} {f : Task → Task} (hf : ∀ t, (f t).id = t.id) :
      ∀ t ∈ (c.revise f).tasks, ∃ s ∈ c.tasks, s.id = t.id := by
    intro t ht
    obtain ⟨s, hs, rfl⟩ := List.mem_map.1 ht
    exact ⟨s, hs, (hf s).symm⟩
  intro t ht
  cases h with
  | refused | looked | createdProject | absent => exact .inr ⟨t, ht, rfl⟩
  | createdTask =>
    rcases List.mem_append.1 ht with ht | ht
    · exact .inr ⟨t, ht, rfl⟩
    · rw [List.mem_singleton.1 ht]
      exact .inl rfl
  | renamed => exact .inr (hrevise ((KeepsTree.renamed on.now _).only _).id t ht)
  | moved =>
    unfold Catalog.relocated at ht
    dsimp only at ht
    split at ht
    · exact .inr ⟨t, ht, rfl⟩
    · exact .inr (hrevise (Task.placed_id _ _) t ht)
  | given _ _ hspreads =>
    obtain ⟨f, hf, rfl⟩ := hspreads.restated
    exact .inr (hrevise hf.keepsTree.id t ht)
  | deleted =>
    obtain ⟨s, hs, hid⟩ := hrevise (Task.placed_id _ _) t ht
    exact .inr ⟨s, (Catalog.mem_without.1 hs).1, hid⟩

section InMemory

variable (hc : c.Sound) (hd : d.Sound)

include hc in
/-- An operation on a project is not seen in other projects. -/
theorem unseen_inMemory (hop : op.Within c P) (hS : ¬ S P) :
    c.Alike S id (inMemory on op c).2 := by
  refine (effect_inMemory hc.wellFormed on op).unseen hc.wellFormed hop.writes id fun q hq => ?_
  rw [hop.touches hc.wellFormed.ids hq]
  exact hS

include hc hd in
/-- An operation on a project answers and leaves the same for the same tasks in that project. -/
theorem alike_inMemory (h : c.Alike (· = P) id d) (hop : op.Within c P)
    (hfree : (∃ s ∈ c.tasks, s.id = on.freshId) ↔ ∃ s ∈ d.tasks, s.id = on.freshId) :
    (inMemory on op c).1 = (inMemory on op d).1 ∧
      (inMemory on op c).2.Alike (· = P) id (inMemory on op d).2 := by
  have hboth := (effect_inMemory hc.wellFormed on op).alike h .whole hc.wellFormed hd.wellFormed
    (fun q hq => decide_eq_true (hop.touches hc.wellFormed.ids hq))
    (fun q hq => decide_eq_true ((hop.of_alike h).touches hd.wellFormed.ids hq)) hfree op.sees_id
    (effect_inMemory hd.wellFormed on op)
  -- with nothing hidden, answers that look alike are the same
  have hseen (r : Except Failure Answer) : r.map (·.seen id) = r := by
    cases r with
    | ok a => exact congrArg Except.ok a.seen_id
    | error e => rfl
  have hanswer := hboth.2 hop.writes.not_isLook
  rw [hseen, hseen] at hanswer
  exact ⟨hanswer, hboth.1⟩

end InMemory

/-! ### Operations on a medium -/

namespace Medium

/-- What an operation answers on a medium, and the records that it leaves: as in memory, unless the
medium cannot take those. -/
inductive Outcome (m : Medium) (on : Occasion) (op : Operation) (c : Catalog) :
    Except Failure Answer → Catalog → Prop
  | kept (hfits : (inMemory on op c).2.Fits m.limit) :
    Outcome m on op c (inMemory on op c).1 (inMemory on op c).2
  | undone (hover : ¬ (inMemory on op c).2.Fits m.limit) : Outcome m on op c (.error op.unfit) c

theorem exists_outcome (m : Medium) (on : Occasion) (op : Operation) (c : Catalog) :
    ∃ r c', m.Outcome on op c r c' := by
  by_cases hfits : (inMemory on op c).2.Fits m.limit
  · exact ⟨_, _, .kept hfits⟩
  · exact ⟨_, _, .undone hfits⟩

/-- A medium can take what an operation on a project leaves from both or from neither of two
catalogs with the same tasks in that project; for it leaves the same tasks there, and leaves alone
all others. -/
theorem fits_iff (hc : c.Sound) (hd : d.Sound) (hfits : c.Fits m.limit) (hfits' : d.Fits m.limit)
    (h : c.Alike (· = P) id d) (hop : op.Within c P)
    (hfree : (∃ s ∈ c.tasks, s.id = on.freshId) ↔ ∃ s ∈ d.tasks, s.id = on.freshId) :
    (inMemory on op c).2.Fits m.limit ↔ (inMemory on op d).2.Fits m.limit := by
  have hafter := (alike_inMemory hc hd h hop hfree).2
  -- all tasks elsewhere were there before, where the limit is kept
  have hout : ¬ (!decide (P = P)) = true := by simp
  have hrest : c.Alike (fun q => !decide (q = P)) id (inMemory on op c).2 :=
    unseen_inMemory hc hop hout
  have hrest' : d.Alike (fun q => !decide (q = P)) id (inMemory on op d).2 :=
    unseen_inMemory hd (hop.of_alike h) hout
  exact ⟨fun hkept => hafter.symm.fits hrest'.symm hkept hfits',
    fun hkept => hafter.fits hrest.symm hkept hfits⟩

namespace Outcome

/-- A medium takes the outcome unless it is spent by what it cannot take. -/
theorem step_eq (h : m.Outcome on op c r c') (hc : c.Sound) (hfits : c.Fits m.limit)
    (hseeks : m.Seeks op) (hkeeps : (inMemory on op c).2.Fits m.limit ∨ m.undone c = m.holding c) :
    m.step on op (m.holding c) = (r, m.holding c') := by
  cases h with
  | kept hkept => exact step_of_fits hc hfits hseeks hkept
  | undone hover =>
    rw [step_of_not_fits hc hfits hseeks hover, hkeeps.resolve_left hover]

theorem sound (h : m.Outcome on op c r c') (hc : c.Sound) : c'.Sound := by
  cases h with
  | kept => exact (leaves_inMemory hc on op).sound
  | undone => exact hc

theorem fits (h : m.Outcome on op c r c') (hc : c.Fits m.limit) : c'.Fits m.limit := by
  cases h with
  | kept hfits => exact hfits
  | undone => exact hc

/-- An operation on a project is not seen in other projects. -/
theorem unseen (h : m.Outcome on op c r c') (hc : c.Sound) (hop : op.Within c P) (hS : ¬ S P) :
    c.Alike S id c' := by
  cases h with
  | kept => exact unseen_inMemory hc hop hS
  | undone => exact .refl S id c

theorem id_mem (h : m.Outcome on op c r c') (hc : c.Sound) :
    ∀ t ∈ c'.tasks, t.id = on.freshId ∨ ∃ s ∈ c.tasks, s.id = t.id := by
  cases h with
  | kept => exact (effect_inMemory hc.wellFormed on op).id_mem
  | undone => exact fun t ht => .inr ⟨t, ht, rfl⟩

/-- An operation on a project answers and leaves the same in two catalogs with the same tasks in
that project. -/
theorem alike (h : m.Outcome on op c r c') (h' : m.Outcome on op d r' d') (hc : c.Sound)
    (hd : d.Sound) (hfits : c.Fits m.limit) (hfits' : d.Fits m.limit) (hcd : c.Alike (· = P) id d)
    (hop : op.Within c P)
    (hfree : (∃ s ∈ c.tasks, s.id = on.freshId) ↔ ∃ s ∈ d.tasks, s.id = on.freshId) :
    r = r' ∧ c'.Alike (· = P) id d' := by
  have hiff := fits_iff hc hd hfits hfits' hcd hop hfree
  cases h with
  | kept hkept =>
    cases h' with
    | kept => exact alike_inMemory hc hd hcd hop hfree
    | undone hover => exact absurd (hiff.1 hkept) hover
  | undone hover =>
    cases h' with
    | kept hkept => exact absurd (hiff.2 hkept) hover
    | undone => exact ⟨rfl, hcd⟩

end Outcome

/-! ### Two operations -/

/-- What is the same in both orders of two operations, `x` on the project `P` and `y` on `Q`: what
each of them answers, and the records in the end.  And neither changes a task of another project
than its own, whether it comes first or second. -/
structure Independent (m : Medium) (s : m.State) (P Q : Uuid) (x y : Occasion × Operation)
    (c cx cy cxy cyx : Catalog) : Prop where
  answers : ∃ rx ry, History.answers m.step s [x, y] = [rx, ry] ∧
    History.answers m.step s [y, x] = [ry, rx]
  first : m.records (History.after m.step s [x]) = .ok cx ∧
    m.records (History.after m.step s [y]) = .ok cy
  both : m.records (History.after m.step s [x, y]) = .ok cxy ∧
    m.records (History.after m.step s [y, x]) = .ok cyx
  same : cxy.SameRecords cyx
  left : ∀ q, q ≠ P → Catalog.SameIn q c cx ∧ Catalog.SameIn q cy cyx
  right : ∀ q, q ≠ Q → Catalog.SameIn q c cy ∧ Catalog.SameIn q cx cxy

section Two

variable {x y : Occasion × Operation} {rx ry rx' ry' : Except Failure Answer}
  {cx cy cxy cyx : Catalog}

/-- Two operations on different projects of a catalog, with identifiers for new tasks that are not
taken. -/
structure Apart (c : Catalog) (P Q : Uuid) (x y : Occasion × Operation) : Prop where
  projects : P ≠ Q
  left : x.2.Within c P
  right : y.2.Within c Q
  ids : x.1.freshId ≠ y.1.freshId
  new : ∀ t ∈ c.tasks, t.id ≠ x.1.freshId ∧ t.id ≠ y.1.freshId

namespace Apart

theorem symm (h : Apart c P Q x y) : Apart c Q P y x where
  projects := h.projects.symm
  left := h.right
  right := h.left
  ids := h.ids.symm
  new := fun t ht => (h.new t ht).symm

variable (h : Apart c P Q x y) (hc : c.Sound) (hfits : c.Fits m.limit)
  (hy : m.Outcome y.1 y.2 c ry cy)

include h hc hy in
/-- The second of the operations leaves the project of the first one as it is. -/
theorem alike_left : c.Alike (· = P) id cy :=
  hy.unseen hc h.right fun hQ => h.projects (of_decide_eq_true hQ).symm

include h hc hy in
/-- Nor does it take the identifier that the first one has for a new task. -/
theorem free_iff :
    (∃ s ∈ c.tasks, s.id = x.1.freshId) ↔ ∃ s ∈ cy.tasks, s.id = x.1.freshId := by
  refine iff_of_false ?_ ?_
  · rintro ⟨s, hs, hid⟩
    exact (h.new s hs).1 hid
  · rintro ⟨s, hs, hid⟩
    rcases hy.id_mem hc s hs with hnew | ⟨t, ht, hts⟩
    · exact h.ids (hid.symm.trans hnew)
    · exact (h.new t ht).1 (hts.trans hid)

include h hc hfits hy in
/-- So a medium can take what the first one leaves after the second one just when it can do so
before it. -/
theorem fits_iff : (inMemory x.1 x.2 c).2.Fits m.limit ↔ (inMemory x.1 x.2 cy).2.Fits m.limit :=
  Medium.fits_iff hc (hy.sound hc) hfits (hy.fits hfits) (h.alike_left hc hy) h.left
    (h.free_iff hc hy)

include h hc hfits hy in
/-- And it answers the same, and leaves the same in its project. -/
theorem outcome_alike (hx : m.Outcome x.1 x.2 c rx cx) (hyx : m.Outcome x.1 x.2 cy rx' cyx) :
    rx = rx' ∧ cx.Alike (· = P) id cyx :=
  hx.alike hyx hc (hy.sound hc) hfits (hy.fits hfits) (h.alike_left hc hy) h.left
    (h.free_iff hc hy)

include h hc hy in
/-- In other projects it is not seen, whether it comes first or second. -/
theorem sameIn_left (hx : m.Outcome x.1 x.2 c rx cx) (hyx : m.Outcome x.1 x.2 cy rx' cyx)
    {q : Uuid} (hq : q ≠ P) : Catalog.SameIn q c cx ∧ Catalog.SameIn q cy cyx := by
  have hS : ¬ decide (P = q) = true := fun hP => hq (of_decide_eq_true hP).symm
  have hwithin := h.left.of_alike (h.alike_left hc hy)
  exact ⟨(hx.unseen (S := (· = q)) hc h.left hS).sameIn (decide_eq_true rfl),
    (hyx.unseen (S := (· = q)) (hy.sound hc) hwithin hS).sameIn (decide_eq_true rfl)⟩

include h hc hfits in
/-- **The records of both orders.** -/
theorem sameRecords (hx : m.Outcome x.1 x.2 c rx cx) (hy : m.Outcome y.1 y.2 c ry cy)
    (hxy : m.Outcome y.1 y.2 cx ry' cxy) (hyx : m.Outcome x.1 x.2 cy rx' cyx) :
    cxy.SameRecords cyx := by
  have hleft (q : Uuid) (hq : q ≠ P) := h.sameIn_left hc hy hx hyx hq
  have hright (q : Uuid) (hq : q ≠ Q) := h.symm.sameIn_left hc hx hy hxy hq
  have hsame (q : Uuid) : Catalog.SameIn q cxy cyx := by
    by_cases hP : q = P
    · -- in the project of the first one, nothing is seen of the second one
      have hq : q ≠ Q := hP ▸ h.projects
      have hx' := (h.outcome_alike hc hfits hy hx hyx).2.sameIn (P := q) (decide_eq_true hP)
      exact (hright q hq).2.symm.trans hx'
    · by_cases hQ : q = Q
      · have hy' := (h.symm.outcome_alike hc hfits hx hy hxy).2.sameIn (P := q) (decide_eq_true hQ)
        exact hy'.symm.trans (hleft q hP).2
      · -- in any other project, nothing is seen of either
        have hbefore := (hleft q hP).1.symm.trans (hright q hQ).1
        exact (hright q hQ).2.symm.trans (hbefore.trans (hleft q hP).2)
  refine ⟨?_, Catalog.perm_of_sameIn hsame, hsame⟩
  -- of no project anything is seen, but the projects themselves are
  have hprojects {o : Occasion × Operation} {e e' : Catalog} {a : Except Failure Answer} {R : Uuid}
      (he : e.Sound) (hwithin : o.2.Within e R) (ho : m.Outcome o.1 o.2 e a e') :
      e.projects = e'.projects :=
    (ho.unseen (S := fun _ => false) he hwithin Bool.false_ne_true).projects
  have hwithin := h.left.of_alike (h.alike_left hc hy)
  have hwithin' := h.right.of_alike (h.symm.alike_left hc hx)
  rw [← hprojects (hx.sound hc) hwithin' hxy, ← hprojects hc h.left hx, hprojects hc h.right hy,
    hprojects (hy.sound hc) hwithin hyx]

include h hc hfits in
/-- If each operation takes its outcome on a medium, the two are independent there. -/
theorem independent (hx : m.Outcome x.1 x.2 c rx cx) (hy : m.Outcome y.1 y.2 c ry cy)
    (hxy : m.Outcome y.1 y.2 cx ry' cxy) (hyx : m.Outcome x.1 x.2 cy rx' cyx)
    (hsx : m.step x.1 x.2 (m.holding c) = (rx, m.holding cx))
    (hsy : m.step y.1 y.2 (m.holding c) = (ry, m.holding cy))
    (hsxy : m.step y.1 y.2 (m.holding cx) = (ry', m.holding cxy))
    (hsyx : m.step x.1 x.2 (m.holding cy) = (rx', m.holding cyx)) :
    m.Independent (m.holding c) P Q x y c cx cy cxy cyx := by
  have hrx := (h.outcome_alike hc hfits hy hx hyx).1
  have hry := (h.symm.outcome_alike hc hfits hx hy hxy).1
  subst hrx hry
  have hafter {o o' : Occasion × Operation} {a a' : Except Failure Answer} {e e' : Catalog}
      (hfirst : m.step o.1 o.2 (m.holding c) = (a, m.holding e))
      (hsecond : m.step o'.1 o'.2 (m.holding e) = (a', m.holding e')) :
      History.answers m.step (m.holding c) [o, o'] = [a, a'] ∧
        History.after m.step (m.holding c) [o] = m.holding e ∧
        History.after m.step (m.holding c) [o, o'] = m.holding e' := by
    refine ⟨?_, congrArg Prod.snd hfirst, ?_⟩
    · change [(m.step o.1 o.2 (m.holding c)).1,
        (m.step o'.1 o'.2 (m.step o.1 o.2 (m.holding c)).2).1] = _
      rw [hfirst, hsecond]
    · change (m.step o'.1 o'.2 (m.step o.1 o.2 (m.holding c)).2).2 = _
      rw [hfirst, hsecond]
  obtain ⟨hanswers, hfirst, hboth⟩ := hafter hsx hsxy
  obtain ⟨hanswers', hfirst', hboth'⟩ := hafter hsy hsyx
  constructor
  case answers => exact ⟨rx, ry, hanswers, hanswers'⟩
  case first =>
    rw [hfirst, hfirst']
    exact ⟨m.records_holding (hx.sound hc) (hx.fits hfits),
      m.records_holding (hy.sound hc) (hy.fits hfits)⟩
  case both =>
    rw [hboth, hboth']
    exact ⟨m.records_holding (hxy.sound (hx.sound hc)) (hxy.fits (hx.fits hfits)),
      m.records_holding (hyx.sound (hy.sound hc)) (hyx.fits (hy.fits hfits))⟩
  case same => exact h.sameRecords hc hfits hx hy hxy hyx
  case left => exact fun q hq => h.sameIn_left hc hy hx hyx hq
  case right => exact fun q hq => h.symm.sameIn_left hc hx hy hxy hq

include h hc hfits hy in
/-- Where whatever a medium cannot take spends it, what the first operation leaves does so in both
orders. -/
theorem spent (hspends : ∀ c, m.Spent (m.undone c))
    (hover : ¬ (inMemory x.1 x.2 c).2.Fits m.limit) :
    m.Spent (History.after m.step (m.holding c) [x, y]) ∧
      m.Spent (History.after m.step (m.holding c) [y, x]) := by
  constructor
  · change m.Spent (m.step y.1 y.2 (m.step x.1 x.2 (m.holding c)).2).2
    rw [step_of_not_fits hc hfits (h.left.seeks m) hover, step_undone (hspends c)]
    exact hspends c
  · change m.Spent (m.step x.1 x.2 (m.step y.1 y.2 (m.holding c)).2).2
    by_cases hkept : (inMemory y.1 y.2 c).2.Fits m.limit
    · -- the first operation goes too far after the second one as well
      have hover' := mt (h.fits_iff hc hfits hy).2 hover
      rw [hy.step_eq hc hfits (h.right.seeks m) (.inl hkept),
        step_of_not_fits (hy.sound hc) (hy.fits hfits) (h.left.seeks m) hover']
      exact hspends cy
    · rw [step_of_not_fits hc hfits (h.right.seeks m) hkept, step_undone (hspends c)]
      exact hspends c

end Apart

end Two

/-- **Projects are independent.**  Two operations that write tasks of different projects answer the
same in either order and leave the same records, and neither changes a task of another project; or
one of them leaves what a session that both share cannot take, and so undoes everything in either
order. -/
theorem projects_independent (m : Medium) (h : History) {c : Catalog}
    {x y : Occasion × Operation} (hc : m.records (m.after h) = .ok c) (hapart : Apart c P Q x y) :
    (∃ cx cy cxy cyx, m.Independent (m.after h) P Q x y c cx cy cxy cyx) ∨
      m.Spent (m.after (h ++ [x, y])) ∧ m.Spent (m.after (h ++ [y, x])) := by
  rw [m.after_append, m.after_append]
  rcases m.after_cases h with ⟨e, he, hfits, hafter⟩ | ⟨hspent, e, hafter⟩
  · rw [hafter, m.records_holding he hfits] at hc
    cases hc
    rw [hafter]
    obtain ⟨rx, cx, hx⟩ := m.exists_outcome x.1 x.2 c
    obtain ⟨ry, cy, hy⟩ := m.exists_outcome y.1 y.2 c
    obtain ⟨ry', cxy, hxy⟩ := m.exists_outcome y.1 y.2 cx
    obtain ⟨rx', cyx, hyx⟩ := m.exists_outcome x.1 x.2 cy
    have hfitsx := hapart.fits_iff he hfits hy
    have hfitsy := hapart.symm.fits_iff he hfits hx
    by_cases hspends : (∀ c, m.Spent (m.undone c)) ∧
        ¬ ((inMemory x.1 x.2 c).2.Fits m.limit ∧ (inMemory y.1 y.2 c).2.Fits m.limit)
    · right
      obtain ⟨hspends, hover⟩ := hspends
      by_cases hkept : (inMemory x.1 x.2 c).2.Fits m.limit
      · exact (hapart.symm.spent he hfits hx hspends fun hboth => hover ⟨hkept, hboth⟩).symm
      · exact hapart.spent he hfits hy hspends hkept
    · left
      -- an operation that fails is without effect, or none does
      have hkeeps : (∀ c, m.undone c = m.holding c) ∨
          ((inMemory x.1 x.2 c).2.Fits m.limit ∧ (inMemory y.1 y.2 c).2.Fits m.limit) := by
        rcases m.recovers_or_spent with hrecovers | hspent
        · exact .inl hrecovers
        · exact .inr (by_contra fun hover => hspends ⟨hspent, hover⟩)
      refine ⟨cx, cy, cxy, cyx, hapart.independent he hfits hx hy hxy hyx ?_ ?_ ?_ ?_⟩
      · exact hx.step_eq he hfits (hapart.left.seeks m)
          (hkeeps.symm.imp And.left fun hrecovers => hrecovers c)
      · exact hy.step_eq he hfits (hapart.right.seeks m)
          (hkeeps.symm.imp And.right fun hrecovers => hrecovers c)
      · exact hxy.step_eq (hx.sound he) (hx.fits hfits) (hapart.right.seeks m)
          (hkeeps.symm.imp (fun hkept => hfitsy.1 hkept.2) fun hrecovers => hrecovers cx)
      · exact hyx.step_eq (hy.sound he) (hy.fits hfits) (hapart.left.seeks m)
          (hkeeps.symm.imp (fun hkept => hfitsx.1 hkept.1) fun hrecovers => hrecovers cy)
  · right
    rw [hafter] at hspent ⊢
    rw [after_undone hspent, after_undone hspent]
    exact ⟨hspent, hspent⟩

/-- Two projects with tasks. -/
def errands : History :=
  [(⟨⟨1⟩, ⟨1#128⟩⟩, .createProject "Home"), (⟨⟨2⟩, ⟨2#128⟩⟩, .createProject "Office"),
    (⟨⟨3⟩, ⟨3#128⟩⟩, .createTask "Sweep" ⟨1#128⟩ none),
    (⟨⟨4⟩, ⟨4#128⟩⟩, .createTask "Corners" ⟨1#128⟩ (some ⟨3#128⟩)),
    (⟨⟨5⟩, ⟨5#128⟩⟩, .createTask "Report" ⟨2#128⟩ none),
    (⟨⟨6⟩, ⟨6#128⟩⟩, .createTask "Figures" ⟨2#128⟩ (some ⟨5#128⟩))]

/-- Completing the corners completes the sweeping; the report gets one more part. -/
theorem errands_independent :
    Apart (History.after inMemory .empty errands) ⟨1#128⟩ ⟨2#128⟩
        (⟨⟨7⟩, ⟨7#128⟩⟩, .complete ⟨4#128⟩)
        (⟨⟨8⟩, ⟨8#128⟩⟩, .createTask "Summary" ⟨2#128⟩ (some ⟨5#128⟩)) ∧
      ∃ cx cy cxy cyx, memory.Independent (memory.after errands) ⟨1#128⟩ ⟨2#128⟩
        (⟨⟨7⟩, ⟨7#128⟩⟩, .complete ⟨4#128⟩)
        (⟨⟨8⟩, ⟨8#128⟩⟩, .createTask "Summary" ⟨2#128⟩ (some ⟨5#128⟩))
        (History.after inMemory .empty errands) cx cy cxy cyx := by
  have hapart : Apart (History.after inMemory .empty errands) ⟨1#128⟩ ⟨2#128⟩
      (⟨⟨7⟩, ⟨7#128⟩⟩, .complete ⟨4#128⟩)
      (⟨⟨8⟩, ⟨8#128⟩⟩, .createTask "Summary" ⟨2#128⟩ (some ⟨5#128⟩)) := by
    constructor
    case projects => decide
    case left => exact ⟨trivial, (fun _ hq => nomatch hq), by decide⟩
    case right => exact ⟨trivial, fun _ hq => (Option.some.inj hq).symm, by decide⟩
    case ids => decide
    case new => decide
  refine ⟨hapart, (projects_independent memory errands rfl hapart).resolve_right ?_⟩
  exact fun hspent => hspent.1

end Medium

end Agenda
