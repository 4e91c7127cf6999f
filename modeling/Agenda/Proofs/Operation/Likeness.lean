import Agenda.Proofs.Engine.Likeness
import Agenda.Proofs.Operation.Cases

/-!
# What operations make of catalogs that look alike

An operation touches a project if it creates a task in it or names one of its tasks.

**Alike before, alike after** (`Effect.alike`).  When two well-formed catalogs look alike as far as
the projects go that an operation touches, and nothing is hidden that it depends on, it answers the
same in both, and they look alike afterwards.  In all other projects it is not seen at all
(`Effect.unseen`).

Whether an operation is refused needs less: the projects, the tasks that it names, and whether the
identifier of a new task is taken (`Operation.refusal?_congr`).
-/

namespace Agenda

variable {c c' d d' : Catalog} {S : Uuid → Bool} {b : Task → Task} {on : Occasion} {op : Operation}
  {r r' : Except Failure Answer}

/-! ### What an operation names -/

namespace Operation

/-- The tasks that an operation names. -/
def named : Operation → List Uuid
  | .createTask _ _ parent => parent.toList
  | .task id _ | .subtasks id _ | .rename id _ | .reorder id _ | .setStatus id _ | .complete id
  | .reopen id | .delete id => [id]
  | _ => []

/-- The project that an operation creates a task in. -/
def home? : Operation → Option Uuid
  | .createTask _ home _ => some home
  | _ => none

/-- The operation creates a task in a project, or names a task of it. -/
def Touches (c : Catalog) (op : Operation) (project : Uuid) : Prop :=
  op.home? = some project ∨ ∃ t ∈ c.tasks, t.id ∈ op.named ∧ t.project = project

/-- An operation does not depend on what is hidden. -/
def Sees (b : Task → Task) : Operation → Prop
  | .reorder .. => ShowsOrder b
  | .setStatus .. | .complete _ | .reopen _ => ShowsStatus b
  | .delete _ => ShowsOrder b ∨ HidesOrder b
  | _ => True

/-- The operation writes tasks and nothing else. -/
def WritesTasks : Operation → Prop
  | .createTask .. | .rename .. | .reorder .. | .setStatus .. | .complete _ | .reopen _
  | .delete _ => True
  | _ => False

theorem WritesTasks.not_isLook (h : op.WritesTasks) : ¬ op.IsLook := by
  cases op with
  | createTask | rename | reorder | setStatus | complete | reopen | delete => exact id
  | _ => exact h.elim

theorem named_of_status {id : Uuid} {status : Status} (h : op.status? = some (id, status)) :
    op.named = [id] := by
  cases op with
  | setStatus id' word =>
    rw [status?] at h
    generalize Status.read word = reading at h
    cases reading with
    | error p => cases h
    | ok status =>
      cases h
      rfl
  | complete | reopen =>
    cases h
    rfl
  | _ => cases h

/-- If a word for a status is not refused, it names one. -/
theorem exists_status {id : Uuid} {word : Scalar}
    (hno : (setStatus id word).refusal? on c = none) :
    ∃ status, (setStatus id word).status? = some (id, status) := by
  rw [refusal?] at hno
  rw [status?]
  have hread := (Option.or_eq_none_iff.1 hno).1
  generalize Status.read word = reading at hread ⊢
  cases reading with
  | error p => cases hread
  | ok status => exact ⟨status, rfl⟩

theorem sees_of_status {id : Uuid} {status : Status} (h : op.status? = some (id, status))
    (hsees : op.Sees b) : ShowsStatus b := by
  cases op with
  | setStatus | complete | reopen => exact hsees
  | _ => cases h

/-- Nothing is hidden. -/
theorem sees_id (op : Operation) : op.Sees id := by
  cases op with
  | reorder | setStatus | complete | reopen => exact fun _ => rfl
  | delete => exact .inl fun _ => rfl
  | _ => trivial

end Operation

/-- What is seen of an answer. -/
def Answer.seen (b : Task → Task) : Answer → Answer
  | .task (.node t below) => .task (.node (b t) below)
  | a => a

theorem Answer.seen_id (a : Answer) : a.seen id = a := by
  rcases a with _ | ⟨_ | _⟩ | _ | _ | _ | _ | _ <;> rfl

/-- Answers with tasks that look alike look alike. -/
theorem Answer.seen_ofTask {t u : Task} (h : b t = b u) :
    (.ok (.ofTask t) : Except Failure Answer).map (·.seen b) =
      (.ok (.ofTask u) : Except Failure Answer).map (·.seen b) := by
  change Except.ok (Answer.task (.node (b t) _)) = .ok (.task (.node (b u) _))
  rw [h]

/-! ### Refusals -/

namespace Catalog

theorem noTask?_congr {u : Uuid} (h : (∃ t ∈ c.tasks, t.id = u) ↔ ∃ t ∈ d.tasks, t.id = u) :
    c.noTask? u = d.noTask? u := by
  rw [← isSome_find?_iff, ← isSome_find?_iff] at h
  rw [noTask?, noTask?, if_congr h rfl rfl]

theorem taskExists?_congr {u : Uuid}
    (h : (∃ t ∈ c.tasks, t.id = u) ↔ ∃ t ∈ d.tasks, t.id = u) :
    c.taskExists? u = d.taskExists? u := by
  rw [← isSome_find?_iff, ← isSome_find?_iff] at h
  rw [taskExists?, taskExists?, if_congr h rfl rfl]

/-- Whether a stored project is asked for depends on the projects only. -/
theorem noProject?_congr (h : c.projects = d.projects) (u : Uuid) :
    c.noProject? u = d.noProject? u := by
  rw [noProject?, noProject?, findProject?, findProject?, h]

theorem projectName?_congr (h : c.projects = d.projects) (name : Text) :
    c.projectName? name = d.projectName? name := by
  rw [projectName?, projectName?, projectNamed?, projectNamed?, h]

theorem projectExists?_congr (h : c.projects = d.projects) (u : Uuid) :
    c.projectExists? u = d.projectExists? u := by
  rw [projectExists?, projectExists?, findProject?, findProject?, h]

namespace Alike

variable (h : Alike S b c d) (hb : Sight b) (hc : c.UniqueIds) (hd : d.UniqueIds)

/-- A task that is stored in one of the projects has a twin. -/
theorem stored (hb : Sight b) (h : Alike S b c d) {u : Uuid}
    (hin : ∀ t ∈ c.tasks, t.id = u → S t.project) (hu : ∃ t ∈ c.tasks, t.id = u) :
    ∃ t ∈ d.tasks, t.id = u := by
  obtain ⟨t, ht, hid⟩ := hu
  obtain ⟨s, hs⟩ := h.exists_twin ht (hin t ht hid)
  exact ⟨s, hs.right, (hb.id_eq hs.same).symm.trans hid⟩

include h hb in
theorem stored_iff {u : Uuid} (hin : ∀ t ∈ c.tasks, t.id = u → S t.project)
    (hin' : ∀ t ∈ d.tasks, t.id = u → S t.project) :
    (∃ t ∈ c.tasks, t.id = u) ↔ ∃ t ∈ d.tasks, t.id = u :=
  ⟨h.stored hb hin, h.symm.stored hb hin'⟩

include h hb hc hd in
theorem foreignParent?_congr (home : Uuid) {parent : Option Uuid}
    (hin : ∀ t ∈ c.tasks, t.id ∈ parent.toList → S t.project)
    (hin' : ∀ t ∈ d.tasks, t.id ∈ parent.toList → S t.project) :
    c.foreignParent? home parent = d.foreignParent? home parent := by
  cases parent with
  | none => rfl
  | some u =>
    rw [foreignParent?, foreignParent?]
    cases hfind : d.find? u with
    | none =>
      -- a parent that the one catalog has, the other has too
      have hnone : c.find? u = none := by
        rw [find?_eq_none_iff] at hfind ⊢
        intro t ht hid
        obtain ⟨s, hs, hsid⟩ := h.stored hb
          (fun t ht hid => hin t ht (Option.mem_toList.2 (congrArg some hid.symm))) ⟨t, ht, hid⟩
        exact hfind s hs hsid
      rw [hnone]
    | some s =>
      obtain ⟨hs, rfl⟩ := hd.find?_eq_some_iff.1 hfind
      obtain ⟨t, hst⟩ := h.symm.exists_twin hs (hin' s hs (Option.mem_toList.2 rfl))
      have hid := hb.id_eq hst.same
      rw [hc.find?_eq_some_iff.2 ⟨hst.right, hid.symm⟩]
      dsimp only
      rw [hid, hb.project_eq hst.same]

end Alike

end Catalog

/-- **Refused alike.**  An operation is refused in both of two catalogs that look alike in the
projects that it touches, or in neither, and for the same. -/
theorem Operation.refusal?_congr (h : c.Alike S b d) (hb : Sight b) (hc : c.UniqueIds)
    (hd : d.UniqueIds) (hin : ∀ q, op.Touches c q → S q) (hin' : ∀ q, op.Touches d q → S q)
    (hfree : (∃ s ∈ c.tasks, s.id = on.freshId) ↔ ∃ s ∈ d.tasks, s.id = on.freshId) :
    op.refusal? on c = op.refusal? on d := by
  have hnamed : ∀ t ∈ c.tasks, t.id ∈ op.named → S t.project :=
    fun t ht hmem => hin _ (.inr ⟨t, ht, hmem, rfl⟩)
  have hnamed' : ∀ t ∈ d.tasks, t.id ∈ op.named → S t.project :=
    fun t ht hmem => hin' _ (.inr ⟨t, ht, hmem, rfl⟩)
  have hstored {u : Uuid} (hu : u ∈ op.named) : c.noTask? u = d.noTask? u :=
    Catalog.noTask?_congr (h.stored_iff hb (fun t ht hid => hnamed t ht (hid ▸ hu))
      fun t ht hid => hnamed' t ht (hid ▸ hu))
  have hproject (u : Uuid) := Catalog.noProject?_congr h.projects u
  cases op with
  | createProject name =>
    rw [refusal?, refusal?, Catalog.projectName?_congr h.projects,
      Catalog.projectExists?_congr h.projects]
  | projectNamed | projects | tasks | delete => rfl
  | project id | projectTasks id | projectTree id => exact hproject id
  | task id | subtasks id | reorder id | complete id | reopen id =>
    exact hstored List.mem_cons_self
  | createTask name home parent =>
    rw [refusal?, refusal?, Catalog.home?, Catalog.home?, hproject,
      h.foreignParent?_congr hb hc hd home hnamed hnamed', Catalog.taskExists?_congr hfree]
  | search id word => rw [refusal?, refusal?, hproject]
  | rename id name => rw [refusal?, refusal?, hstored List.mem_cons_self]
  | setStatus id word => rw [refusal?, refusal?, hstored List.mem_cons_self]

/-! ### Effects -/

namespace Catalog

/-- New tasks that look alike stand last in groups of one length. -/
theorem Alike.asLast_eq (h : c.Alike S b d) (hb : Sight b) {t : Task}
    (hg : ∀ s ∈ c.tasks, s.group = t.group → S s.project)
    (hg' : ∀ s ∈ d.tasks, s.group = t.group → S s.project) : c.asLast t = d.asLast t := by
  rw [asLast, asLast, h.length_members hb hg hg']

end Catalog

namespace Effect

/-- **Alike before, alike after.** -/
theorem alike (h : c.Alike S b d) (hb : Sight b) (hc : c.WellFormed) (hd : d.WellFormed)
    (hin : ∀ q, op.Touches c q → S q) (hin' : ∀ q, op.Touches d q → S q)
    (hfree : (∃ s ∈ c.tasks, s.id = on.freshId) ↔ ∃ s ∈ d.tasks, s.id = on.freshId)
    (hsees : op.Sees b) (he : Effect on c op r c') (he' : Effect on d op r' d') :
    c'.Alike S b d' ∧ (¬ op.IsLook → r.map (·.seen b) = r'.map (·.seen b)) := by
  have hrefusal := Operation.refusal?_congr h hb hc.ids hd.ids hin hin' hfree
  cases hno : op.refusal? on c with
  | some e =>
    obtain ⟨rfl, rfl⟩ := he.of_refusal hc.ids hno
    obtain ⟨rfl, rfl⟩ := he'.of_refusal hd.ids (hrefusal ▸ hno)
    exact ⟨h, fun _ => rfl⟩
  | none =>
    have hno' := hrefusal ▸ hno
    -- a task that is named in the one catalog has its twin in the other
    have htwins {t u : Task} (ht : t ∈ c.tasks) (hu : u ∈ d.tasks) (hid : u.id = t.id)
        (hmem : t.id ∈ op.named) : c.Twins S b d t u :=
      h.twins hb hd.ids ht (hin _ (.inr ⟨t, ht, hmem, rfl⟩)) hu hid
    have hgiven {id : Uuid} {status : Status} (hop : op.status? = some (id, status)) :
        c'.Alike S b d' ∧ r.map (·.seen b) = r'.map (·.seen b) := by
      obtain ⟨t, ht, hid, rfl, hspreads⟩ := he.of_status hop hno
      obtain ⟨u, hu, hid', rfl, hspreads'⟩ := he'.of_status hop hno'
      have hmem : t.id ∈ op.named := by
        rw [Operation.named_of_status hop, hid]
        exact List.mem_cons_self
      have htu := htwins ht hu (hid'.trans hid.symm) hmem
      exact ⟨htu.spreads h hb hc hd (Operation.sees_of_status hop hsees) hspreads hspreads',
        Answer.seen_ofTask (hb.status htu.same status)⟩
    cases op with
    | project | projectNamed | projects | task | tasks | projectTasks | projectTree | subtasks
    | search =>
      rw [he.of_isLook trivial, he'.of_isLook trivial]
      exact ⟨h, fun hlook => absurd trivial hlook⟩
    | createProject name =>
      obtain ⟨rfl, rfl⟩ := he.of_createProject hno
      obtain ⟨rfl, rfl⟩ := he'.of_createProject hno'
      exact ⟨⟨congrArg (· ++ _) h.projects, h.tasks⟩, fun _ => rfl⟩
    | createTask name home parent =>
      -- the place of the new task is the number of its siblings, and these are in its project
      obtain ⟨rfl, rfl, -, hparent⟩ := he.of_createTask hno
      obtain ⟨rfl, rfl, -, hparent'⟩ := he'.of_createTask hno'
      have hS : S home := hin home (.inl rfl)
      have hlast : c.asLast (Task.create on name home parent) =
          d.asLast (Task.create on name home parent) := by
        refine h.asLast_eq hb (fun s hs hg => ?_) (fun s hs hg => ?_)
        · rw [hc.project_of_group hparent hs hg]
          exact hS
        · rw [hd.project_of_group hparent' hs hg]
          exact hS
      rw [hlast]
      exact ⟨h.withTask _, fun _ => rfl⟩
    | rename id name =>
      obtain ⟨t, ht, rfl, rfl, rfl⟩ := he.of_rename hno
      obtain ⟨u, hu, hid, rfl, rfl⟩ := he'.of_rename hno'
      have htu := htwins ht hu hid List.mem_cons_self
      have hnamed {s r : Task} (hsr : b s = b r) :
          b { s with name := name, updated := on.now } =
            b { r with name := name, updated := on.now } :=
        hb.updated (hb.name hsr name) on.now
      exact ⟨h.only hb t.id (.renamed on.now name) hnamed,
        fun _ => Answer.seen_ofTask (hnamed htu.same)⟩
    | reorder id place =>
      obtain ⟨t, ht, rfl, rfl, rfl⟩ := he.of_reorder hno
      obtain ⟨u, hu, hid, rfl, rfl⟩ := he'.of_reorder hno'
      have htu := htwins ht hu hid List.mem_cons_self
      have hplace : c.placeFor t place = d.placeFor u place := by
        rw [Catalog.placeFor, Catalog.placeFor, htu.length_ranked_eq h hb hc hd,
          ShowsOrder.order_eq hsees htu.same]
      rw [hplace]
      exact ⟨htu.relocated h hb hc hd hsees on.now place,
        fun _ => Answer.seen_ofTask (hb.order htu.same _)⟩
    | setStatus id word =>
      obtain ⟨status, hop⟩ := Operation.exists_status hno
      exact (hgiven hop).imp_right fun hr _ => hr
    | complete id => exact (hgiven rfl).imp_right fun hr _ => hr
    | reopen id => exact (hgiven rfl).imp_right fun hr _ => hr
    | delete id =>
      -- the task is stored in both or in neither
      rcases he.of_delete with ⟨t, ht, rfl, rfl, rfl⟩ | ⟨habsent, rfl, rfl⟩
      · rcases he'.of_delete with ⟨u, hu, hid, rfl, rfl⟩ | ⟨habsent, rfl, rfl⟩
        · have htu := htwins ht hu hid List.mem_cons_self
          exact ⟨htu.pruned h hb hc hd hsees on.now,
            fun _ => Answer.seen_ofTask htu.same⟩
        · obtain ⟨u, hu⟩ := h.exists_twin ht
            (hin _ (.inr ⟨t, ht, List.mem_cons_self, rfl⟩))
          exact absurd (hb.id_eq hu.same).symm (habsent u hu.right)
      · rcases he'.of_delete with ⟨u, hu, rfl, rfl, rfl⟩ | ⟨-, rfl, rfl⟩
        · obtain ⟨t, ht⟩ := h.symm.exists_twin hu
            (hin' _ (.inr ⟨u, hu, List.mem_cons_self, rfl⟩))
          exact absurd (hb.id_eq ht.same).symm (habsent t ht.right)
        · exact ⟨h, fun _ => rfl⟩

/-- **Elsewhere unseen.**  In projects that an operation on tasks does not touch, nothing of it is
seen. -/
theorem unseen (hc : c.WellFormed) (hop : op.WritesTasks) (b : Task → Task)
    (hout : ∀ q, op.Touches c q → ¬ S q) (he : Effect on c op r c') : c.Alike S b c' := by
  have hnamed {t : Task} (ht : t ∈ c.tasks) (hmem : t.id ∈ op.named) : ¬ S t.project :=
    hout _ (.inr ⟨t, ht, hmem, rfl⟩)
  cases he with
  | refused | looked | absent => exact .refl S b c
  | createdProject => exact hop.elim
  | @createdTask name home parent =>
    refine ⟨rfl, ?_⟩
    have hS : ¬ S home := hout home (.inl rfl)
    rw [Catalog.seen_withTask]
    exact ((congrArg _ (if_neg hS)).trans (List.append_nil _)).symm
  | @renamed t name ht =>
    refine .of_revise ((KeepsTree.renamed on.now name).only _) fun s hs hin => ?_
    have hother : s.id ≠ t.id := fun hid => by
      rw [hc.ids.eq hs ht hid] at hin
      exact hnamed ht List.mem_cons_self hin
    rw [Catalog.only, if_neg hother]
  | moved ht => exact .of_relocated hc ht (hnamed ht List.mem_cons_self) b _ _
  | given ht hstatus hspreads =>
    refine .of_spreads hc ht (hnamed ht ?_) b hspreads
    rw [Operation.named_of_status hstatus]
    exact List.mem_cons_self
  | deleted ht => exact .of_pruned hc ht (hnamed ht List.mem_cons_self) b _

end Effect

end Agenda
