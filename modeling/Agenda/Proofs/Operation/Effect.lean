import Agenda.Proofs.Engine.Completion
import Agenda.Proofs.Engine.Siblings
import Agenda.Proofs.Operation.Verdict

/-!
# What one operation does

`Effect on c op r c'` lists everything that an operation can make of a catalog whose tasks form
whole trees: it is refused and changes nothing, or it shows what is stored and changes nothing
because it only looks, or it makes the one change that it is there for.  `Operation.meets_effect`
says that the list is complete, and what an operation is refused for decides whether it is
(`Effect.refusal?_eq`).  What is said elsewhere of all operations, that they keep this or that, is
said by cases on this list, and no program has to be opened again for it.

Nothing is asked of the orders and the names in the catalog.  If they pass their checks at first,
they do so all the way (`Catalog.KeepsTidy`), as long as there is room for what the operation
writes, and a new name can be written (`Operation.Fits`); that is what a database relies on, where
every row is checked whenever it is read.
-/

namespace Agenda

open Program

variable {W : Prop} {B : Nat} {c : Catalog} {t : Task} {on : Occasion} {now : Instant}

/-- The task that an operation gives a status to, and the status. -/
def Operation.status? : Operation → Option (Uuid × Status)
  | .setStatus id word => (Status.read word).toOption.map (id, ·)
  | .complete id => some (id, .completed)
  | .reopen id => some (id, .pending)
  | _ => none

/-- The group of siblings that an operation puts a new task into. -/
def Operation.newGroup? : Operation → Option Group
  | .createTask _ home none => some (.roots home)
  | .createTask _ _ (some u) => some (.children u)
  | _ => none

/-- The name that an operation gives to a stored task. -/
def Operation.newName? : Operation → Option Text
  | .rename _ name => some name
  | _ => none

/-- A bound on the orders leaves room for the groups that there are and for a new task, and a new
name can be written. -/
structure Operation.Fits (on : Occasion) (B : Nat) (c : Catalog) (op : Operation) : Prop where
  groups : ∀ g, (c.members g).length ≤ B
  room : op.refusal? on c = none → ∀ g, op.newGroup? = some g → (c.members g).length < B
  writable : op.refusal? on c = none → ∀ name, op.newName? = some name → name.isWritable = true

theorem Operation.newGroup?_createTask (on : Occasion) (name : Text) (home : Uuid)
    (parent : Option Uuid) : (Operation.createTask name home parent).newGroup? =
      some (Task.create on name home parent).group := by
  cases parent <;> rfl

/-- A bound above the number of all tasks leaves room. -/
theorem Operation.fits_of_lt {op : Operation} (hB : c.tasks.length < B)
    (hname : op.refusal? on c = none → ∀ name, op.newName? = some name → name.isWritable = true) :
    op.Fits on B c :=
  ⟨fun g => (c.length_members_le g).trans hB.le,
    fun _ g _ => (c.length_members_le g).trans_lt hB, hname⟩

/-- What an operation answers, and what becomes of a catalog through it. -/
inductive Effect (on : Occasion) (c : Catalog) : Operation → Except Failure Answer → Catalog → Prop
  | refused {op : Operation} {e : Failure} (he : op.refusal? on c = some e) :
    Effect on c op (.error e) c
  | looked {op : Operation} {a : Answer} (hno : op.refusal? on c = none)
    (ha : op.view? c = some a) : Effect on c op (.ok a) c
  | createdProject {name : Text} (hid : ∀ q ∈ c.projects, q.id ≠ on.freshId)
    (hfree : ∀ q ∈ c.projects, q.name ≠ name) (hname : NameRule.project.refusal? name = none) :
    Effect on c (.createProject name) (.ok (.project ⟨on.freshId, name, on.now⟩))
      { c with projects := c.projects ++ [⟨on.freshId, name, on.now⟩] }
  | createdTask {name : Text} {home : Uuid} {parent : Option Uuid}
    (hid : ∀ s ∈ c.tasks, s.id ≠ on.freshId) (hname : NameRule.task.refusal? name = none)
    (hhome : ∃ p ∈ c.projects, p.id = home)
    (hparent : ∀ u, parent = some u → ∃ s ∈ c.tasks, s.id = u ∧ s.project = home) :
    Effect on c (.createTask name home parent)
      (.ok (.ofTask (c.asLast (Task.create on name home parent))))
      (c.withTask (c.asLast (Task.create on name home parent)))
  | renamed {t : Task} {name : Text} (ht : t ∈ c.tasks)
    (hname : Task.checkName name = .ok name) :
    Effect on c (.rename t.id name) (.ok (.ofTask { t with name := name, updated := on.now }))
      (c.revise (Catalog.only t.id fun t => { t with name := name, updated := on.now }))
  | moved {t : Task} {place : Int} (ht : t ∈ c.tasks) :
    Effect on c (.reorder t.id place) (.ok (.ofTask { t with order := c.placeFor t place }))
      (c.relocated on.now t place)
  | given {op : Operation} {t : Task} {status : Status} {c' : Catalog} (ht : t ∈ c.tasks)
    (hop : op.status? = some (t.id, status)) (h : c.Spreads on.now t status c') :
    Effect on c op (.ok (.ofTask { t with status := status })) c'
  | deleted {t : Task} (ht : t ∈ c.tasks) :
    Effect on c (.delete t.id) (.ok (.ofTask t)) (c.pruned on.now t)
  | absent {id : Uuid} (hno : ∀ t ∈ c.tasks, t.id ≠ id) : Effect on c (.delete id) (.ok .nothing) c

/-- An operation that fails changes nothing. -/
theorem Effect.unchanged {op : Operation} {e : Failure} {c' : Catalog}
    (h : Effect on c op (.error e) c') : c' = c := by
  cases h
  rfl

/-! ### Refused or not -/

/-- Whether an operation succeeds, and what it fails with otherwise. -/
def Operation.verdict (on : Occasion) (c : Catalog) (op : Operation) : Except Failure Unit :=
  match op.refusal? on c with
  | none => .ok ()
  | some e => .error e

/-- An operation that creates a task is not refused. -/
theorem Operation.refusal?_createTask {name : Text} {home : Uuid} {parent : Option Uuid}
    (hids : c.UniqueIds) (hnew : ∀ s ∈ c.tasks, s.id ≠ on.freshId)
    (hname : NameRule.task.refusal? name = none) (hhome : ∃ p ∈ c.projects, p.id = home)
    (hparent : ∀ u, parent = some u → ∃ s ∈ c.tasks, s.id = u ∧ s.project = home) :
    (Operation.createTask name home parent).refusal? on c = none := by
  obtain ⟨p, hp, rfl⟩ := hhome
  have hforeign : c.foreignParent? p.id parent = none := by
    cases parent with
    | none => rfl
    | some u =>
      obtain ⟨s, hs, rfl, hsame⟩ := hparent u rfl
      rw [Catalog.foreignParent?, hids.find?_eq_some_iff.2 ⟨hs, rfl⟩]
      exact if_pos hsame
  obtain ⟨hwritable, hgood⟩ := Task.refusal?_eq_none_iff.1 hname
  rw [refusal?, hgood, Task.errors_create on p.id parent hgood, hwritable, Catalog.home?,
    Catalog.noProject?_of_mem hp, hforeign, Catalog.taskExists?_of_notMem hnew]
  rfl

/-- An operation that succeeds is not refused. -/
theorem Effect.refusal?_eq_none {op : Operation} {a : Answer} {c' : Catalog} (hids : c.UniqueIds)
    (h : Effect on c op (.ok a) c') : op.refusal? on c = none := by
  cases h with
  | looked hno => exact hno
  | @createdProject name hid hfree hname =>
    have hunknown : c.projectNamed? name = none := by
      rw [Catalog.projectNamed?, List.find?_eq_none]
      exact fun q hq => by simpa using hfree q hq
    rw [Operation.refusal?, Catalog.projectName?, hunknown, hname,
      Catalog.projectExists?_of_notMem hid]
    rfl
  | createdTask hid hname hhome hparent =>
    exact Operation.refusal?_createTask hids hid hname hhome hparent
  | renamed ht hname =>
    rw [Operation.refusal?, hname, Catalog.noTask?_of_mem ht]
    rfl
  | moved ht => exact Catalog.noTask?_of_mem ht
  | @given _ t status c' ht hop h =>
    have hstored := Catalog.noTask?_of_mem ht
    cases op with
    | setStatus id word =>
      rw [Operation.status?] at hop
      rw [Operation.refusal?]
      generalize Status.read word = reading at hop ⊢
      cases reading with
      | error p => cases hop
      | ok status =>
        cases hop
        exact hstored
    | complete id | reopen id =>
      cases hop
      exact hstored
    | _ => cases hop
  | deleted | absent => rfl

/-- An operation that fails is refused for that. -/
theorem Effect.refusal?_eq_some {op : Operation} {e : Failure} {c' : Catalog}
    (h : Effect on c op (.error e) c') : op.refusal? on c = some e := by
  cases h with
  | refused he => exact he

/-- **The verdict** is whether the operation succeeds. -/
theorem Effect.verdict {op : Operation} {r : Except Failure Answer} {c' : Catalog}
    (hids : c.UniqueIds) (h : Effect on c op r c') : r.map (fun _ => ()) = op.verdict on c := by
  cases r with
  | ok a =>
    rw [Operation.verdict, h.refusal?_eq_none hids]
    rfl
  | error e =>
    rw [Operation.verdict, h.refusal?_eq_some]
    rfl

/-! ### Tidy all the way -/

/-- If the one catalog is a forest, so is the other; and if it is tidy, so is the other under a
condition. -/
structure Catalog.KeepsTidy (W : Prop) (B : Nat) (c c' : Catalog) : Prop where
  forest : c.Forest → c'.Forest
  tidy : W → c.Tidy B → c'.Tidy B

namespace Catalog

theorem KeepsTidy.refl (W : Prop) (B : Nat) (c : Catalog) : c.KeepsTidy W B c :=
  ⟨fun h => h, fun _ h => h⟩

theorem KeepsTidy.without (W : Prop) (B : Nat) (c : Catalog) (D : List Uuid) :
    c.KeepsTidy W B (c.without D) :=
  ⟨fun h => h.without D, fun _ h => h.without D⟩

theorem KeepsTidy.restated {c' : Catalog} (h : Restated c c') : c.KeepsTidy W B c' := by
  obtain ⟨f, hf, rfl⟩ := h
  refine ⟨fun hforest => hforest.revise hf.keepsTree, fun _ htidy => ?_⟩
  refine htidy.revise hf.keepsTree (fun t ht => ?_) (fun t ht => ?_)
  · have hpasses := Task.errors_eq_nil.1 (htidy.tasks t ht)
    rw [Task.errors_eq_nil, hf.name, hf.order]
    exact hpasses
  · rw [hf.order]
    exact htidy.orders t ht

/-- Whatever is taken out first, the gap of a task can be closed. -/
theorem KeepsTidy.closing (ht : t ∈ c.tasks) (now : Instant) (D : List Uuid) :
    c.KeepsTidy W B ((c.without D).revise
      (Task.placed now (Siblings.closing (c.ranked t.group) t.order))) :=
  ⟨fun hforest => (hforest.without D).revise (.placed now _),
    fun _ htidy => (htidy.without D).placed now (htidy.closing_bounds ht)⟩

theorem KeepsTidy.relocated (hB : W → (c.members t.group).length ≤ B) (ht : t ∈ c.tasks)
    (now : Instant) (target : Int) : c.KeepsTidy W B (c.relocated now t target) := by
  by_cases hstays : (c.ranked t.group).length ≤ 1 ∨
      Siblings.clamp (c.ranked t.group).length target = t.order
  · rw [relocated_of_stays hstays]
    exact .refl W B c
  · rw [relocated_of_moves hstays]
    refine ⟨fun hforest => hforest.revise (.placed now _), fun hW htidy => htidy.placed now ?_⟩
    have hB := hB hW
    -- the new places are places in the group
    have hmem : t ∈ c.ranked t.group := mem_ranked.2 ⟨ht, rfl⟩
    have hsource := List.findIdx_lt_length_of_exists (p := fun s => decide (s.id = t.id))
      ⟨t, hmem, decide_eq_true rfl⟩
    have hbounds := Siblings.clamp_bounds (c.ranked t.group).length (by omega) target
    rw [← length_ranked] at hB
    intro o ho
    obtain ⟨i, s, hlow, hhigh, hget, rfl⟩ := Siblings.mem_renumbering.1 ho
    obtain ⟨hi, -⟩ := List.getElem?_eq_some_iff.1 hget
    have htarget : (Siblings.clamp (c.ranked t.group).length target).toNat <
        (c.ranked t.group).length := by
      omega
    have hlen := (Siblings.perm_moved hsource htarget).length_eq
    dsimp only
    omega

end Catalog

/-! ### Projects -/

/-- Creating a project. -/
theorem Projects.meets_create (c : Catalog) (name : Text) :
    (Projects.create on name).Meets on.now (c.KeepsTidy W B)
      (fun r c' => Effect on c (.createProject name) (r.map .project) c') c := by
  have hS := Catalog.KeepsTidy.refl W B c
  unfold create announce say
  rw [meets_log_bind, meets_bind]
  refine meets_ask_of (.projectNamed _) (Catalog.answer_projectNamed c on.now name) hS ?_
  rw [between_ok]
  split
  · -- the name is given already
    rename_i htaken
    refine .refused ?_
    rw [Operation.refusal?, Catalog.projectName?, htaken]
    rfl
  · rename_i hfree
    split
    · -- the name breaks the rule
      rename_i hbad
      refine .refused ?_
      rw [Operation.refusal?, Catalog.projectName?, hfree, hbad]
      rfl
    · rename_i hname
      have hgood : c.projectName? name = none := by
        rw [Catalog.projectName?, hfree, hname]
        rfl
      have hnames : ∀ q ∈ c.projects, q.name ≠ name := by
        simpa [Catalog.projectNamed?] using hfree
      rw [meets_bind]
      by_cases hid : ∃ q ∈ c.projects, q.id = on.freshId
      · have hanswer : c.addProject ⟨on.freshId, name, on.now⟩ =
            (.error (.of (.projectExists on.freshId)), c) := by
          obtain ⟨q, hq, hqid⟩ := hid
          rw [Catalog.addProject, if_pos]
          rw [Catalog.findProject?, List.find?_isSome]
          exact ⟨q, hq, by simpa using hqid⟩
        refine meets_ask_of (.addProject _) hanswer hS (.refused ?_)
        rw [Operation.refusal?, hgood, Option.none_or]
        exact Catalog.projectExists?_of_mem hid
      · have hids : ∀ q ∈ c.projects, q.id ≠ on.freshId := fun q hq hqid => hid ⟨q, hq, hqid⟩
        have hanswer : c.addProject ⟨on.freshId, name, on.now⟩ =
            (.ok (), { c with projects := c.projects ++ [⟨on.freshId, name, on.now⟩] }) := by
          rw [Catalog.addProject, if_neg, if_neg]
          · simp [hfree]
          · simpa [Catalog.findProject?] using hids
        refine meets_ask_of (.addProject _) hanswer ?_ (.createdProject hids hnames hname)
        refine ⟨fun hforest => ⟨hforest.ids, hforest.acyclic⟩, fun _ htidy =>
          ⟨⟨htidy.ids, htidy.acyclic⟩, ⟨htidy.tasks, fun q hq => ?_⟩, htidy.orders⟩⟩
        rcases List.mem_append.1 hq with hq | hq
        · exact htidy.projects q hq
        · rw [List.mem_singleton.1 hq]
          exact Project.errors_eq_nil.2 hname

/-! ### Tasks -/

namespace Tasks

/-- Reporting a failure in the log changes neither the result nor the store. -/
theorem meets_reporting {α σ : Type} [Store.Backend σ] {S : σ → Prop} {s : σ}
    {kind : Problem.Kind} {lead : Text} {p : Program α} {Q : Except Failure α → σ → Prop} :
    (reporting kind lead p).Meets now S Q s ↔ p.Meets now S Q s := by
  rw [reporting, meets_handle]
  constructor
  · intro h
    refine h.mono fun r s' hr => ?_
    cases r with
    | ok a => exact hr
    | error e =>
      dsimp only at hr
      split at hr <;> exact hr
  · intro h
    refine h.mono fun r s' hr => ?_
    cases r with
    | ok a => exact hr
    | error e =>
      dsimp only
      split <;> exact hr

/-- What is known once the project and the parent of a new task have been looked up. -/
theorem meets_checkHome {S : Catalog → Prop} (hids : c.UniqueIds) (hS : S c) (home : Uuid)
    (parent : Option Uuid) : (checkHome home parent).Meets on.now S (fun r c' => c' = c ∧
      (∀ e, r = .error e → c.home? home parent = some e) ∧
      (r = .ok () → c.home? home parent = none ∧ (∃ p ∈ c.projects, p.id = home) ∧
        ∀ u, parent = some u → ∃ s ∈ c.tasks, s.id = u ∧ s.project = home)) c := by
  have hrefused {e : Failure} (he : c.home? home parent = some e) :
      (∀ e', (.error e : Except Failure Unit) = .error e' → c.home? home parent = some e') := by
    rintro _ ⟨⟩
    exact he
  unfold checkHome
  refine meets_project_bind hS home (fun p hp hid hstored => ?_) fun e he => ?_
  · -- the project is stored; a parent must be, too, and must lie in it
    have hproject : ∃ p ∈ c.projects, p.id = home := ⟨p, hp, hid⟩
    have hhome : c.home? home parent = c.foreignParent? home parent := by
      rw [Catalog.home?, hstored, Option.none_or]
    cases parent with
    | none =>
      exact ⟨rfl, (fun _ he => nomatch he), fun _ => ⟨hhome, hproject, fun u hu => nomatch hu⟩⟩
    | some u =>
      dsimp only
      rw [meets_bind]
      refine meets_ask_of (.task _) (Catalog.answer_task c on.now) hS ?_
      rcases hids.task_cases u with ⟨s, hs, rfl, hreply⟩ | ⟨hno, hreply⟩
      · have hparent : c.foreignParent? home (some s.id) =
            if s.project = home then none
            else some (.of (.foreignParent s.id s.project home)) := by
          rw [Catalog.foreignParent?, hids.find?_eq_some_iff.2 ⟨hs, rfl⟩]
        rw [hreply, between_ok]
        split
        · rename_i hsame
          refine ⟨rfl, (fun _ he => nomatch he), fun _ => ⟨?_, hproject, fun v hv => ?_⟩⟩
          · rw [hhome, hparent, if_pos hsame]
          · cases hv
            exact ⟨s, hs, rfl, hsame⟩
        · rename_i hother
          refine ⟨rfl, hrefused ?_, fun hok => nomatch hok⟩
          rw [hhome, hparent, if_neg hother]
      · rw [hreply]
        refine ⟨rfl, hrefused ?_, fun hok => nomatch hok⟩
        rw [hhome, Catalog.foreignParent?, Catalog.find?_eq_none_iff.2 hno]
  · refine ⟨rfl, hrefused ?_, fun hok => nomatch hok⟩
    rw [Catalog.home?, he, Option.some_or]

/-- A task with a good name goes behind its siblings, where its order is below the bound. -/
theorem keepsTidy_withTask (hB : W → (c.members t.group).length < B)
    (hnew : ∀ s ∈ c.tasks, s.id ≠ t.id) (hname : NameRule.task.refusal? t.name = none)
    (hparent : c.ParentStored t) (hstored : ∀ s ∈ c.tasks, c.ParentStored s) :
    c.KeepsTidy W B (c.withTask (c.asLast t)) := by
  have hlast : ∀ s ∈ c.tasks ++ [c.asLast t], s ∈ c.tasks ∨ s = c.asLast t := fun s hs =>
    (List.mem_append.1 hs).imp_right List.mem_singleton.1
  have hforest : c.Forest → (c.withTask (c.asLast t)).Forest := by
    refine fun hforest => ⟨hforest.ids.withTask hnew, ?_⟩
    -- parents are stored, so none of them is the new task
    refine hforest.acyclic.append (fun hp => ?_) (fun s hs hp => ?_)
    · obtain ⟨r, hr, hid⟩ := hparent t.id hp
      exact hnew r hr hid
    · obtain ⟨r, hr, hid⟩ := hstored s hs t.id hp
      exact hnew r hr hid
  refine ⟨hforest, fun hW htidy => ⟨hforest htidy.toForest, ⟨fun s hs => ?_, htidy.projects⟩,
    fun s hs => ?_⟩⟩
  · rcases hlast s hs with hs | rfl
    · exact htidy.tasks s hs
    · exact Task.errors_eq_nil.2 ⟨hname, Int.natCast_nonneg _⟩
  · rcases hlast s hs with hs | rfl
    · exact htidy.orders s hs
    · exact Int.ofNat_lt.2 (hB hW)

/-- The fields of a task are in order, or it is refused. -/
theorem meets_validate {σ : Type} [Store.Backend σ] {S : σ → Prop} {s : σ} {t : Task}
    {refused : List Field.Error} {Q : Except Failure Unit → σ → Prop} :
    (validate t refused).Meets now S Q s ↔
      Q (match t.errors ++ refused with
        | [] => .ok ()
        | errors => .error (.refused "Task" errors)) s := by
  unfold validate
  generalize t.errors ++ refused = errors
  cases errors <;> exact Iff.rfl

/-- Creating a task with a name that passes all checks. -/
theorem meets_createNamed (h : c.Whole) {name : Text} {home : Uuid} {parent : Option Uuid}
    (hgood : NameRule.task.refusal? name = none)
    (hrefusal : (Operation.createTask name home parent).refusal? on c =
      ((c.home? home parent).or (c.taskExists? on.freshId)).map
        (Failure.inContext (.creatingTask name)))
    (hroom : W → (Operation.createTask name home parent).Fits on B c) :
    (createNamed on name home parent).rest.Meets on.now (c.KeepsTidy W B)
      (fun r c' => Effect on c (.createTask name home parent) (r.map .ofTask) c') c := by
  have hS := Catalog.KeepsTidy.refl W B c
  change ((inContext (.creatingTask name) (reporting .general _ (checkHome home parent))) >>=
    fun _ => Siblings.append (Task.create on name home parent) >>= _).Meets on.now _ _ c
  rw [meets_bind, meets_inContext, meets_reporting]
  refine (meets_checkHome h.ids hS home parent).mono ?_
  rintro r c' ⟨rfl, hbad, hok⟩
  -- up to here nothing has been written
  cases r with
  | error e =>
    refine .refused ?_
    rw [hrefusal, hbad e rfl]
    rfl
  | ok _ =>
    obtain ⟨hhome, hproject, hparent⟩ := hok rfl
    rw [hhome, Option.none_or] at hrefusal
    have hstored : c'.ParentStored (Task.create on name home parent) := by
      intro u hu
      obtain ⟨s, hs, hid, -⟩ := hparent u hu
      exact ⟨s, hs, hid⟩
    change Meets on.now _ _ (_ >>= _) _
    rw [meets_bind]
    by_cases htaken : ∃ s ∈ c'.tasks, s.id = on.freshId
    · refine (Siblings.meets_append_taken h.ids hstored htaken hS).mono ?_
      rintro _ _ ⟨rfl, rfl⟩
      refine .refused ?_
      rw [hrefusal, Catalog.taskExists?_of_mem htaken]
      rfl
    · have hnew : ∀ s ∈ c'.tasks, s.id ≠ on.freshId :=
        fun s hs hid => htaken ⟨s, hs, hid⟩
      rw [Catalog.taskExists?_of_notMem hnew] at hrefusal
      have hroom (hW : W) :=
        (hroom hW).room hrefusal _ (Operation.newGroup?_createTask on name home parent)
      refine (Siblings.meets_append h.ids hstored hnew hS
        (keepsTidy_withTask hroom hnew hgood hstored h.parentStored)).mono ?_
      rintro _ _ ⟨rfl, rfl⟩
      exact .createdTask hnew hgood hproject hparent

/-- Creating a task. -/
theorem meets_create (h : c.Whole) (name : Text) (home : Uuid) (parent : Option Uuid)
    (hroom : W → (Operation.createTask name home parent).Fits on B c) :
    (Plan.alone (create on name home parent)).Meets on.now (c.KeepsTidy W B)
      (fun r c' => Effect on c (.createTask name home parent) (r.map .ofTask) c') c := by
  rw [Plan.meets_alone]
  unfold create announce say
  rw [meets_log_bind, meets_bind, meets_ofExcept]
  cases hname : Task.checkName name with
  | error p =>
    refine .refused ?_
    rw [Operation.refusal?, hname]
    rfl
  | ok name' =>
    obtain rfl := Task.checkName_eq_ok hname
    have herrors := Task.errors_create on home parent hname
    change (validate (Task.create on name' home parent) [] >>= _).Meets on.now _ _ c
    rw [meets_bind, meets_validate, List.append_nil]
    cases hwritable : name'.isWritable with
    | false =>
      rw [hwritable, if_neg Bool.false_ne_true] at herrors
      rw [herrors]
      refine .refused ?_
      rw [Operation.refusal?, hname, herrors]
      rfl
    | true =>
      rw [hwritable, if_pos rfl] at herrors
      rw [herrors]
      refine meets_createNamed h (Task.refusal?_eq_none_iff.2 ⟨hwritable, hname⟩) ?_ hroom
      rw [Operation.refusal?, hname, herrors]
      rfl

/-- A catalog in which a task gets another name. -/
theorem keepsTidy_rename {name : Text} (hname : W → NameRule.task.refusal? name = none) (u : Uuid)
    (now : Instant) : c.KeepsTidy W B
      (c.revise (Catalog.only u fun t => { t with name := name, updated := now })) := by
  have hkeep := (KeepsTree.renamed now name).only u
  refine ⟨fun hforest => hforest.revise hkeep, fun hW htidy => ?_⟩
  refine htidy.revise hkeep (fun s hs => ?_) (fun s hs => ?_)
  · unfold Catalog.only
    split
    · exact Task.errors_eq_nil.2 ⟨hname hW, (Task.errors_eq_nil.1 (htidy.tasks s hs)).2⟩
    · exact htidy.tasks s hs
  · unfold Catalog.only
    split <;> exact htidy.orders s hs

/-- Renaming a task. -/
theorem meets_rename (h : c.Whole) (id : Uuid) (name : Text)
    (hwritable : W → (Operation.rename id name).Fits on B c) :
    (rename id name).Meets on.now (c.KeepsTidy W B)
      (fun r c' => Effect on c (.rename id name) (r.map .ofTask) c') c := by
  have hS := Catalog.KeepsTidy.refl W B c
  unfold rename
  rw [meets_bind, meets_ofExcept]
  cases hname : Task.checkName name with
  | error p =>
    refine .refused ?_
    rw [Operation.refusal?, hname]
    rfl
  | ok name' =>
    obtain rfl := Task.checkName_eq_ok hname
    change (_ >>= _ : Program Task).Meets on.now _ _ c
    rw [meets_bind, meets_inContext, meets_reporting]
    rcases h.ids.task_cases id with ⟨t, ht, rfl, -⟩ | ⟨hno, -⟩
    · have hrefusal : (Operation.rename t.id name').refusal? on c = none := by
        rw [Operation.refusal?, hname, Catalog.noTask?_of_mem ht]
        rfl
      have hgood (hW : W) :=
        Task.refusal?_eq_none_iff.2 ⟨(hwritable hW).writable hrefusal name' rfl, hname⟩
      exact meets_ask_of (.rename _ _)
        (h.ids.change_of_mem ht fun t => { t with name := name', updated := on.now })
        (keepsTidy_rename hgood t.id on.now) (.renamed ht hname)
    · refine meets_ask_of (.rename _ _) (Catalog.change_of_notMem hno _) hS (.refused ?_)
      rw [Operation.refusal?, hname, Catalog.noTask?_of_notMem hno]
      rfl

/-- Moving a task to another place. -/
theorem meets_reorder (h : c.Whole) (hB : W → ∀ g, (c.members g).length ≤ B) (id : Uuid)
    (place : Int) : (Plan.alone (reorder id place)).Meets on.now (c.KeepsTidy W B)
      (fun r c' => Effect on c (.reorder id place) (r.map .ofTask) c') c := by
  have hS := Catalog.KeepsTidy.refl W B c
  rw [Plan.meets_alone]
  unfold reorder reorderBy
  refine meets_task_bind h.ids hS id (fun t ht hid _ => ?_) fun e he => .refused he
  subst hid
  change (reporting _ _ (Siblings.move t.id place) >>= _ : Program Task).Meets on.now _ _ c
  rw [meets_bind, meets_reporting]
  refine (Siblings.meets_move h.ids (h.parentStored t ht) ht place hS
    (.relocated (fun hW => hB hW t.group) ht on.now place)).mono ?_
  rintro _ _ ⟨rfl, rfl⟩
  exact .moved ht

/-- Giving a task a status. -/
theorem meets_setStatus (h : c.Whole) {op : Operation} {id : Uuid} {status : Status}
    (hop : op.status? = some (id, status)) (hrefusal : op.refusal? on c = c.noTask? id) :
    (Plan.alone (setStatus id status)).Meets on.now (c.KeepsTidy W B)
      (fun r c' => Effect on c op (r.map .ofTask) c') c := by
  have hS := Catalog.KeepsTidy.refl W B c
  rw [Plan.meets_alone]
  unfold setStatus
  refine meets_task_bind h.ids hS id (fun t ht hid _ => ?_) fun e he => .refused (hrefusal.trans he)
  subst hid
  change (inContext _ (reporting _ _ (Completion.set t.id status)) >>= _ :
    Program Task).Meets on.now _ _ c
  rw [meets_bind, meets_inContext, meets_reporting]
  refine (Completion.meets_set h.ids h.acyclic h.parentStored ht
    (fun c' hc' => .restated hc') status).mono ?_
  rintro _ c' ⟨rfl, hc'⟩
  exact .given ht hop hc'

/-- Removing a task with everything below it. -/
theorem meets_delete (h : c.Whole) (id : Uuid) :
    (Plan.alone (delete id)).Meets on.now (c.KeepsTidy W B)
      (fun r c' => Effect on c (.delete id) (r.map .ofTask?) c') c := by
  have hS := Catalog.KeepsTidy.refl W B c
  rw [Plan.meets_alone]
  unfold delete
  rw [meets_bind]
  refine Siblings.meets_find h.ids hS (fun t ht hid => ?_) fun hno => .absent hno
  subst hid
  -- with nobody else around, the task is still there when it is looked for again
  change (Siblings.remove t.id >>= _ : Program (Option Task)).Meets on.now _ _ c
  unfold Siblings.remove
  rw [meets_bind, meets_bind]
  refine Siblings.meets_find h.ids hS (fun s hs hid => ?_) fun hno => absurd rfl (hno t ht)
  obtain rfl := h.ids.eq hs ht hid
  change (inContext _ (some <$> Siblings.removeStored s) : Program (Option Task)).Meets on.now _ _ c
  rw [meets_inContext, meets_map]
  refine (Siblings.meets_removeStored h.ids h.acyclic (h.parentStored s hs) hs
    (.without W B c) (.closing hs on.now)).mono ?_
  rintro _ _ ⟨rfl, rfl⟩
  exact .deleted hs

end Tasks

/-! ### All operations -/

namespace Operation

/-- **One operation.**  From whole trees an operation does one of the things listed, and on the way
the catalog stays a forest; and it stays tidy if it is tidy at first, as long as what the operation
writes is allowed. -/
theorem meets_effect (on : Occasion) (B : Nat) (h : c.Whole) (op : Operation) :
    (Plan.alone (op.plan on)).Meets on.now (c.KeepsTidy (op.Fits on B c) B) (Effect on c op) c := by
  have hS := Catalog.KeepsTidy.refl (op.Fits on B c) B c
  by_cases hlook : op.IsLook
  · refine (meets_look h.ids hS hlook).mono ?_
    rintro r _ ⟨rfl, hr⟩
    cases hr with
    | refused he => exact .refused he
    | shown hno ha => exact .looked hno ha
  cases op with
  | project | projectNamed | projects | tasks | task | projectTasks | projectTree | subtasks
  | search => cases hlook trivial
  | createProject name =>
    rw [plan, Plan.alone_ofProgram, meets_map]
    exact Projects.meets_create c name
  | createTask name home parent =>
    rw [plan, Plan.alone_map, meets_map]
    exact Tasks.meets_create h name home parent fun hfits => hfits
  | rename id name =>
    rw [plan, Plan.alone_ofProgram, meets_map]
    exact Tasks.meets_rename h id name fun hfits => hfits
  | reorder id place =>
    rw [plan, Plan.alone_map, meets_map]
    exact Tasks.meets_reorder h (fun hfits => hfits.groups) id place
  | setStatus id word =>
    rw [plan, Plan.alone_map, meets_map]
    have hop : (Operation.setStatus id word).status? =
        (Status.read word).toOption.map (id, ·) := rfl
    have hrefusal : (Operation.setStatus id word).refusal? on c =
        (Failure.ofReading? (Status.read word)).or (c.noTask? id) := by rw [refusal?]
    generalize Status.read word = reading at hop hrefusal ⊢
    cases reading with
    | error p => exact .refused hrefusal
    | ok status => exact Tasks.meets_setStatus h hop hrefusal
  | complete id =>
    rw [plan, Plan.alone_map, meets_map]
    exact Tasks.meets_setStatus h rfl rfl
  | reopen id =>
    rw [plan, Plan.alone_map, meets_map]
    exact Tasks.meets_setStatus h rfl rfl
  | delete id =>
    rw [plan, Plan.alone_map, meets_map]
    exact Tasks.meets_delete h id

end Operation

end Agenda
