import Agenda.Proofs.Catalog.Trees
import Agenda.Proofs.Operation.Reading

/-!
# What operations are refused for, and what looks show

`Operation.refusal?` says of every operation what it fails with on a catalog, if it fails, and
`Operation.view?` says of every operation that only looks what it shows if it is not refused.  Both
are read off the stored records; no program is run for them.

The operations that only look do what these two say and leave the catalog as it is
(`Operation.meets_look`).
-/

namespace Agenda

open Program

/-! ### Refusals -/

/-- The failure of a reading, if it fails. -/
def Failure.ofReading? {α : Type} : Except Problem α → Option Failure
  | .ok _ => none
  | .error p => some (.problem p)

/-- A name that its check does not refuse is read as it is. -/
theorem Task.checkName_of_granted {name : Text}
    (h : Failure.ofReading? (checkName name) = none) : checkName name = .ok name := by
  cases hchecked : checkName name with
  | error p =>
    rw [hchecked] at h
    cases h
  | ok name' => rw [checkName_eq_ok hchecked]

/-- The failure of a record that does not pass its check. -/
def Failure.ofErrors? (subject : String) (errors : List Field.Error) : Option Failure :=
  if errors.isEmpty then none else some (.refused subject errors)

namespace Catalog

/-- What a request for a task is refused for. -/
def noTask? (c : Catalog) (id : Uuid) : Option Failure :=
  if (c.find? id).isSome then none else some (.of (.noTask id))

/-- What a request for a project is refused for. -/
def noProject? (c : Catalog) (id : Uuid) : Option Failure :=
  if (c.findProject? id).isSome then none else some (.of (.noProject id))

/-- What a new task with an identifier is refused for. -/
def taskExists? (c : Catalog) (id : Uuid) : Option Failure :=
  if (c.find? id).isSome then some (.of (.taskExists id)) else none

/-- What a new project with an identifier is refused for. -/
def projectExists? (c : Catalog) (id : Uuid) : Option Failure :=
  if (c.findProject? id).isSome then some (.of (.projectExists id)) else none

/-- What a name is refused for that a new project asks for. -/
def projectName? (c : Catalog) (name : Text) : Option Failure :=
  if (c.projectNamed? name).isSome then some (.of (.projectNameTaken name))
  else (NameRule.project.refusal? name).map fun why => .of (.badProjectName name why.message)

/-- What a parent is refused for that a new task of a project asks for. -/
def foreignParent? (c : Catalog) (home : Uuid) : Option Uuid → Option Failure
  | none => none
  | some u =>
    match c.find? u with
    | none => some (.of (.noTask u))
    | some above =>
      if above.project = home then none else some (.of (.foreignParent above.id above.project home))

/-- What the project and the parent of a new task are refused for; the project is looked at
first. -/
def home? (c : Catalog) (home : Uuid) (parent : Option Uuid) : Option Failure :=
  (c.noProject? home).or (c.foreignParent? home parent)

end Catalog

namespace Operation

/-- What an operation is refused for, if it is refused. -/
def refusal? (on : Occasion) (c : Catalog) : Operation → Option Failure
  | .createProject name => (c.projectName? name).or (c.projectExists? on.freshId)
  | .projectNamed _ | .projects | .tasks | .delete _ => none
  | .project id | .projectTasks id | .projectTree id => c.noProject? id
  | .task id _ | .subtasks id _ | .reorder id _ | .complete id | .reopen id => c.noTask? id
  | .createTask name home parent =>
    (Failure.ofReading? (Task.checkName name)).or
      ((Failure.ofErrors? "Task" (Task.create on name home parent).errors).or
        (((c.home? home parent).or (c.taskExists? on.freshId)).map
          (Failure.inContext (.creatingTask name))))
  | .search id word => (Failure.ofReading? (Status.read word)).or (c.noProject? id)
  | .rename id name =>
    (Failure.ofReading? (Task.checkName name)).or
      ((c.noTask? id).map (Failure.inContext (.renamingTask id)))
  | .setStatus id word => (Failure.ofReading? (Status.read word)).or (c.noTask? id)

end Operation

section Refusals

variable {c : Catalog} {t : Task} {id : Uuid}

namespace Catalog

theorem noTask?_of_mem (ht : t ∈ c.tasks) : c.noTask? t.id = none := by
  rw [noTask?, if_pos]
  rw [Option.isSome_iff_ne_none]
  exact fun hnone => find?_eq_none_iff.1 hnone t ht rfl

theorem noTask?_of_notMem (hno : ∀ t ∈ c.tasks, t.id ≠ id) :
    c.noTask? id = some (.of (.noTask id)) := by
  rw [noTask?, find?_eq_none_iff.2 hno]
  rfl

theorem findProject?_eq_none_iff : c.findProject? id = none ↔ ∀ p ∈ c.projects, p.id ≠ id := by
  simp [findProject?]

theorem noProject?_of_mem {p : Project} (hp : p ∈ c.projects) : c.noProject? p.id = none := by
  rw [noProject?, if_pos]
  rw [Option.isSome_iff_ne_none]
  exact fun hnone => findProject?_eq_none_iff.1 hnone p hp rfl

theorem noProject?_of_notMem (hno : ∀ p ∈ c.projects, p.id ≠ id) :
    c.noProject? id = some (.of (.noProject id)) := by
  rw [noProject?, findProject?_eq_none_iff.2 hno]
  rfl

theorem taskExists?_of_mem (h : ∃ s ∈ c.tasks, s.id = id) :
    c.taskExists? id = some (.of (.taskExists id)) := by
  obtain ⟨s, hs, hid⟩ := h
  rw [taskExists?, if_pos]
  rw [Option.isSome_iff_ne_none]
  exact fun hnone => find?_eq_none_iff.1 hnone s hs hid

theorem projectExists?_of_mem (h : ∃ p ∈ c.projects, p.id = id) :
    c.projectExists? id = some (.of (.projectExists id)) := by
  obtain ⟨p, hp, hid⟩ := h
  rw [projectExists?, if_pos]
  rw [Option.isSome_iff_ne_none]
  exact fun hnone => findProject?_eq_none_iff.1 hnone p hp hid

theorem projectExists?_of_notMem (h : ∀ p ∈ c.projects, p.id ≠ id) :
    c.projectExists? id = none := by
  rw [projectExists?, findProject?_eq_none_iff.2 h]
  rfl

theorem taskExists?_of_notMem (h : ∀ s ∈ c.tasks, s.id ≠ id) : c.taskExists? id = none := by
  rw [taskExists?, find?_eq_none_iff.2 h]
  rfl

end Catalog

/-- What a failure that may be there is, if it is there. -/
theorem Failure.IsProblem.or {o o' : Option Failure} (h : ∀ e ∈ o, e.IsProblem)
    (h' : ∀ e ∈ o', e.IsProblem) : ∀ e ∈ o.or o', e.IsProblem := by
  intro e he
  rcases Option.or_eq_some_iff.1 he with he | ⟨-, he⟩
  · exact h e he
  · exact h' e he

theorem Failure.IsProblem.map {o : Option Failure} (h : ∀ e ∈ o, e.IsProblem)
    (context : Problem.Context) : ∀ e ∈ o.map (Failure.inContext context), e.IsProblem := by
  intro e he
  obtain ⟨e', he', rfl⟩ := Option.map_eq_some_iff.1 he
  exact (h e' he').inContext context

theorem Failure.isProblem_ofReading {α : Type} (r : Except Problem α) :
    ∀ e ∈ Failure.ofReading? r, e.IsProblem := by
  intro e he
  cases r with
  | ok a => cases he
  | error p => exact ⟨p, (Option.some.inj he).symm⟩

namespace Catalog

/-- What comes of a test is a problem, whichever way it is passed. -/
theorem isProblem_of_ite {p : Prop} [Decidable p] {reason : Problem.Reason} :
    (∀ e ∈ (if p then some (Failure.of reason) else none), e.IsProblem) ∧
      ∀ e ∈ (if p then none else some (Failure.of reason)), e.IsProblem := by
  constructor <;> intro e he <;> split at he <;> cases he <;> exact Failure.isProblem_of _

theorem isProblem_of_projectName (c : Catalog) (name : Text) :
    ∀ e ∈ c.projectName? name, e.IsProblem := by
  intro e he
  unfold projectName? at he
  split at he
  · cases he
    exact Failure.isProblem_of _
  · obtain ⟨why, -, rfl⟩ := Option.map_eq_some_iff.1 he
    exact Failure.isProblem_of _

theorem isProblem_of_foreignParent (c : Catalog) (home : Uuid) (parent : Option Uuid) :
    ∀ e ∈ c.foreignParent? home parent, e.IsProblem := by
  intro e he
  unfold foreignParent? at he
  split at he
  · cases he
  · split at he
    · cases he
      exact Failure.isProblem_of _
    · exact isProblem_of_ite.2 e he

theorem isProblem_of_home (c : Catalog) (home : Uuid) (parent : Option Uuid) :
    ∀ e ∈ c.home? home parent, e.IsProblem :=
  .or isProblem_of_ite.2 (isProblem_of_foreignParent c home parent)

end Catalog

/-- A new task is refused by its own check if its name passes the check of requests and cannot be
written. -/
theorem Task.errors_create (on : Occasion) {name : Text} (home : Uuid) (parent : Option Uuid)
    (h : Task.checkName name = .ok name) : (Task.create on name home parent).errors =
      if name.isWritable then [] else [.at "name" .unwritable (.plain (.text name))] := by
  unfold errors
  cases hw : name.isWritable with
  | true =>
    have hrule : NameRule.task.refusal? name = none := refusal?_eq_none_iff.2 ⟨hw, h⟩
    simp [Task.create, hrule]
  | false =>
    have hrule : NameRule.task.refusal? name = some .unwritable := by
      rw [NameRule.refusal?, hw]
      rfl
    simp [Task.create, hrule]

/-- **Problems only.**  Whatever an operation is refused for is a problem, but for the name of a
new task: one that cannot be written is refused by the check of the task itself. -/
theorem Operation.isProblem_of_refusal {on : Occasion} {op : Operation} {e : Failure}
    (h : op.refusal? on c = some e) : e.IsProblem ∨
      ∃ name home parent, op = .createTask name home parent ∧ name.isWritable = false ∧
        e = .refused "Task" [.at "name" .unwritable (.plain (.text name))] := by
  have hname (name : Text) := Failure.isProblem_ofReading (Task.checkName name)
  have hword (word : Scalar) := Failure.isProblem_ofReading (Status.read word)
  cases op <;> rw [refusal?] at h
  case createProject name =>
    exact .inl
      (Failure.IsProblem.or (c.isProblem_of_projectName name) Catalog.isProblem_of_ite.1 e h)
  case projectNamed | projects | tasks | delete => cases h
  case project | projectTasks | projectTree => exact .inl (Catalog.isProblem_of_ite.2 e h)
  case task | subtasks | reorder | complete | reopen => exact .inl (Catalog.isProblem_of_ite.2 e h)
  case createTask name home parent =>
    cases hread : Task.checkName name with
    | error p =>
      rw [hread] at h
      exact .inl ⟨p, (Option.some.inj h).symm⟩
    | ok name' =>
      obtain rfl := Task.checkName_eq_ok hread
      rw [hread, Task.errors_create on home parent hread] at h
      cases hw : name'.isWritable with
      | true =>
        rw [hw] at h
        have hfree : ∀ e ∈ c.taskExists? on.freshId, e.IsProblem := Catalog.isProblem_of_ite.1
        have hplace := Failure.IsProblem.or (c.isProblem_of_home home parent) hfree
        exact .inl (.map hplace _ e h)
      | false =>
        rw [hw] at h
        exact .inr ⟨name', home, parent, rfl, hw, (Option.some.inj h).symm⟩
  case search id word =>
    exact .inl (Failure.IsProblem.or (hword word) Catalog.isProblem_of_ite.2 e h)
  case rename id name =>
    exact .inl (Failure.IsProblem.or (hname name) (.map Catalog.isProblem_of_ite.2 _) e h)
  case setStatus id word =>
    exact .inl (Failure.IsProblem.or (hword word) Catalog.isProblem_of_ite.2 e h)

end Refusals

/-! ### Views -/

/-- What an operation shows that only looks, if it is not refused. -/
def Operation.view? (c : Catalog) : Operation → Option Answer
  | .project id => (c.findProject? id).map .project
  | .projectNamed name => some (.ofProject? (c.projectNamed? name))
  | .projects => some (.projects (sortOn (·.created.micros) c.projects))
  | .task id withSubtasks =>
    (c.find? id).map fun t => .task (if withSubtasks then c.tree t else .leaf t)
  | .tasks => some (.ofTasks (Catalog.byAge c.tasks))
  | .projectTasks id => some (.ofTasks (c.tasksOf id))
  | .projectTree id => some (.tasks (c.forest id))
  | .subtasks id deep => some (.ofTasks (if deep then c.descendants id else c.children id))
  | .search id word =>
    (Status.read word).toOption.map fun status =>
      .ofTasks ((c.tasksOf id).filter (·.status = status))
  | _ => none

/-- The operation is one of those that write nothing. -/
def Operation.IsLook : Operation → Prop
  | .createProject _ | .createTask .. | .rename .. | .reorder .. | .setStatus .. | .complete _
  | .reopen _ | .delete _ => False
  | _ => True

/-- What has a view only looks. -/
theorem Operation.isLook_of_view {c : Catalog} {op : Operation} {a : Answer}
    (h : op.view? c = some a) : op.IsLook := by
  cases op with
  | createProject | createTask | rename | reorder | setStatus | complete | reopen | delete =>
    cases h
  | _ => trivial

/-- What comes of an operation that only looks: it is refused, or it shows its view. -/
inductive Operation.Looked (on : Occasion) (c : Catalog) (op : Operation) :
    Except Failure Answer → Prop
  | refused {e : Failure} (he : op.refusal? on c = some e) : Looked on c op (.error e)
  | shown {a : Answer} (hno : op.refusal? on c = none) (ha : op.view? c = some a) :
    Looked on c op (.ok a)

section Looking

variable {c : Catalog} {on : Occasion} {S : Catalog → Prop}

/-- A project is asked for first. -/
theorem meets_project_bind {α : Type} (hS : S c) (id : Uuid) {f : Project → Program α}
    {Q : Except Failure α → Catalog → Prop}
    (hfound : ∀ p ∈ c.projects, p.id = id → c.noProject? id = none → (f p).Meets on.now S Q c)
    (hmissing : ∀ e, c.noProject? id = some e → Q (.error e) c) :
    ((ask (.project id) : Program Project) >>= f).Meets on.now S Q c := by
  rw [meets_bind]
  rcases c.project_cases on.now id with ⟨p, hp, rfl, hreply⟩ | ⟨hno, hreply⟩
  · exact meets_ask_of (.project _) hreply hS
      (hfound p hp rfl (Catalog.noProject?_of_mem hp))
  · exact meets_ask_of (.project _) hreply hS (hmissing _ (Catalog.noProject?_of_notMem hno))

/-- A task is asked for first. -/
theorem meets_task_bind {α : Type} (hids : c.UniqueIds) (hS : S c) (id : Uuid)
    {f : Task → Program α} {Q : Except Failure α → Catalog → Prop}
    (hfound : ∀ t ∈ c.tasks, t.id = id → c.noTask? id = none → (f t).Meets on.now S Q c)
    (hmissing : ∀ e, c.noTask? id = some e → Q (.error e) c) :
    ((ask (.task id) : Program Task) >>= f).Meets on.now S Q c := by
  rw [meets_bind]
  refine meets_ask_of (.task _) (Catalog.answer_task c on.now) hS ?_
  rcases hids.task_cases id with ⟨t, ht, rfl, hreply⟩ | ⟨hno, hreply⟩
  · rw [hreply]
    exact hfound t ht rfl (Catalog.noTask?_of_mem ht)
  · rw [hreply]
    exact hmissing _ (Catalog.noTask?_of_notMem hno)

namespace Tasks

/-- A stored task is expanded to its tree. -/
theorem meets_expand (hids : c.UniqueIds) (hS : S c) {t : Task} (ht : t ∈ c.tasks)
    {Q : Except Failure Tree → Catalog → Prop} (hQ : Q (.ok (c.tree t)) c) :
    (expand t).Meets on.now S Q c := by
  unfold expand
  rw [meets_bind]
  exact meets_ask_of (.descendants _) (hids.about_of_mem ht _) hS hQ

/-- Stored tasks are expanded to their trees, one after another. -/
theorem meets_expandAll (hids : c.UniqueIds) (hS : S c) {ts : List Task}
    (hts : ∀ t ∈ ts, t ∈ c.tasks) {Q : Except Failure (List Tree) → Catalog → Prop}
    (hQ : Q (.ok (ts.map c.tree)) c) : (ts.mapM expand).Meets on.now S Q c := by
  induction ts generalizing Q with
  | nil => exact hQ
  | cons t ts ih =>
    rw [List.mapM_cons, meets_bind]
    refine meets_expand hids hS (hts t List.mem_cons_self) ?_
    rw [between_ok, meets_bind]
    exact ih (fun s hs => hts s (List.mem_cons_of_mem t hs)) hQ

/-- What depends on a stored task is asked for. -/
theorem meets_about {α : Type} (hids : c.UniqueIds) (id : Uuid) {answer : α}
    {Q : Except Failure α → Catalog → Prop} (hfound : c.noTask? id = none → Q (.ok answer) c)
    (hmissing : ∀ e, c.noTask? id = some e → Q (.error e) c) :
    Q (c.about id answer).1 (c.about id answer).2 := by
  rcases hids.task_cases id with ⟨t, ht, rfl, -⟩ | ⟨hno, hreply⟩
  · rw [hids.about_of_mem ht]
    exact hfound (Catalog.noTask?_of_mem ht)
  · rw [Catalog.about, hreply]
    exact hmissing _ (Catalog.noTask?_of_notMem hno)

theorem meets_subtasks (hids : c.UniqueIds) (hS : S c) (id : Uuid) (deep : Bool)
    {Q : Except Failure (List Task) → Catalog → Prop}
    (hfound : c.noTask? id = none → Q (.ok (if deep then c.descendants id else c.children id)) c)
    (hmissing : ∀ e, c.noTask? id = some e → Q (.error e) c) :
    (subtasks id deep).Meets on.now S Q c := by
  unfold subtasks
  cases deep with
  | true =>
    refine meets_ask_of (.descendants _) (Catalog.answer_descendants c on.now) hS ?_
    exact meets_about hids id hfound hmissing
  | false =>
    exact meets_ask_of (.children _) (Catalog.answer_children c on.now) hS
      (meets_about hids id hfound hmissing)

theorem meets_search {id : Uuid} {word : Scalar} {p : Program (List Task)}
    (hp : p = search id word) (hS : S c) {Q : Except Failure (List Task) → Catalog → Prop}
    (hbad : ∀ e, Failure.ofReading? (Status.read word) = some e → Q (.error e) c)
    (hmissing : Failure.ofReading? (Status.read word) = none →
      ∀ e, c.noProject? id = some e → Q (.error e) c)
    (hfound : ∀ status, Status.read word = .ok status → c.noProject? id = none →
      Q (.ok ((c.tasksOf id).filter (·.status = status))) c) : p.Meets on.now S Q c := by
  unfold search at hp
  generalize Status.read word = reading at hp hbad hmissing hfound
  subst hp
  rw [meets_bind, meets_ofExcept]
  cases reading with
  | error p => exact hbad _ rfl
  | ok status =>
    refine meets_project_bind hS id (fun p _ _ hno => ?_) (hmissing rfl)
    exact meets_ask_of (.tasksWith _ _) rfl hS (hfound status rfl hno)

end Tasks

/-- **Looking.**  An operation that only looks is refused or shows its view, and the catalog stays
as it is. -/
theorem Operation.meets_look (hids : c.UniqueIds) (hS : S c) {op : Operation} (hop : op.IsLook) :
    (Plan.alone (op.plan on)).Meets on.now S (fun r c' => c' = c ∧ op.Looked on c r) c := by
  cases op with
  | createProject | createTask | rename | reorder | setStatus | complete | reopen | delete =>
    cases hop
  | project id =>
    rw [plan, Plan.alone_ofProgram, meets_map]
    refine meets_ask_of (.project _) (Catalog.answer_project id) hS ⟨rfl, ?_⟩
    cases hfind : c.findProject? id with
    | some p =>
      refine .shown ?_ (by rw [view?, hfind]; rfl)
      rw [refusal?, Catalog.noProject?, hfind]
      rfl
    | none =>
      refine .refused ?_
      rw [refusal?, Catalog.noProject?, hfind]
      rfl
  | projectNamed name =>
    rw [plan, Plan.alone_ofProgram, meets_map]
    exact meets_ask_of (.projectNamed _) (Catalog.answer_projectNamed c on.now name) hS
      ⟨rfl, .shown rfl rfl⟩
  | projects =>
    rw [plan, Plan.alone_ofProgram, meets_map]
    exact meets_ask_of .allProjects rfl hS ⟨rfl, .shown rfl rfl⟩
  | task id withSubtasks =>
    rw [plan, Plan.alone_ofProgram, meets_map]
    refine meets_task_bind hids hS id (fun t ht hid hno => ?_) fun e he => ⟨rfl, .refused he⟩
    subst hid
    have hfound := hids.find?_eq_some_iff.2 ⟨ht, rfl⟩
    have hview (tree : Tree) (htree : tree = if withSubtasks then c.tree t else .leaf t) :
        (Operation.task t.id withSubtasks).Looked on c (.ok (.task tree)) := by
      subst htree
      refine .shown hno ?_
      rw [view?, hfound]
      rfl
    split
    · exact Tasks.meets_expand hids hS ht ⟨rfl, hview _ (if_pos ‹_›).symm⟩
    · exact ⟨rfl, hview _ (if_neg ‹_›).symm⟩
  | tasks =>
    rw [plan, Plan.alone_ofProgram, meets_map]
    exact meets_ask_of .allTasks rfl hS ⟨rfl, .shown rfl rfl⟩
  | projectTasks id =>
    rw [plan, Plan.alone_ofProgram, meets_map]
    refine meets_project_bind hS id (fun p hp hid hno => ?_) fun e he => ⟨rfl, .refused he⟩
    exact meets_ask_of (.tasksOf _) rfl hS ⟨rfl, .shown hno rfl⟩
  | projectTree id =>
    rw [plan, Plan.alone_ofProgram, meets_map]
    refine meets_project_bind hS id (fun p hp hid hno => ?_) fun e he => ⟨rfl, .refused he⟩
    rw [meets_bind]
    refine meets_ask_of (.roots _) rfl hS ?_
    rw [between_ok]
    refine Tasks.meets_expandAll hids hS (fun t ht => ?_) ⟨rfl, .shown hno rfl⟩
    exact (List.mem_filter.1 (mem_sortOn.1 ht)).1
  | subtasks id deep =>
    rw [plan, Plan.alone_ofProgram, meets_map]
    exact Tasks.meets_subtasks hids hS id deep (fun hno => ⟨rfl, .shown hno rfl⟩)
      fun e he => ⟨rfl, .refused he⟩
  | search id word =>
    rw [plan, Plan.alone_ofProgram, meets_map]
    -- what the program is must stay closed, or its reading of the word is evaluated
    generalize hp : Tasks.search id word = p
    refine Tasks.meets_search hp.symm hS (fun e he => ⟨rfl, .refused ?_⟩)
      (fun hgood e he => ⟨rfl, .refused ?_⟩) fun status hstatus hno => ⟨rfl, .shown ?_ ?_⟩
    · rw [refusal?, he, Option.some_or]
    · rw [refusal?, hgood, Option.none_or, he]
    · rw [refusal?, hstatus, hno]
      rfl
    · rw [view?, hstatus]
      rfl

end Looking

end Agenda
