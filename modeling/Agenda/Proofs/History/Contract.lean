import Agenda.Proofs.History.Media

/-!
# The contract of the operations

`Operation.clauses` is the contract of all operations as one table: under which conditions each of
them fails, and with what kind of failure.  The conditions speak of the arguments and of what is
stored, in the words of those who make the request: a name is blank or too long, a word names no
status, nothing is stored with an identifier.  They count in their order, and if none applies the
operation succeeds (`Obeys`).  Where a name cannot be written, a database adds clauses of its own:
it cannot look for such a name, and it cannot write it (`Medium.clauses`).

**The contract is kept** (`Medium.contract_kept`).  On every medium, after every history, an
operation fails exactly as the table says, and so with nothing that its own requests to the store
could fail with on the way.  A medium with a limit has one more reason to fail, which is none of the
table: a group of siblings that is as large as the limit takes no further task.

What an operation is refused for is known already, request by request (`Operation.refusal?`); the
table is that, read by causes (`Operation.obeys_refusal`).
-/

namespace Agenda

/-! ### The table -/

/-- The kinds of failures that the contract knows. -/
inductive Complaint
  /-- A problem of a class. -/
  | problem (kind : Problem.Kind)
  /-- The new record is refused by its own check. -/
  | refused
  /-- A name cannot be handed to the database. -/
  | unwritable
  deriving DecidableEq, Repr

/-- The kind of a failure, if the contract knows it. -/
def Failure.complaint? : Failure → Option Complaint
  | .problem p => some (.problem p.kind)
  | .refused .. => some .refused
  | .unwritable _ => some .unwritable
  | _ => none

/-- A name that is blank or longer than a limit. -/
def Unfit (limit : Nat) (name : Text) : Prop :=
  name.isBlankText = true ∨ limit < name.length

/-- Without the blanks at its ends and in small letters, the word is no word for a status. -/
def Scalar.NamesNoStatus (word : Scalar) : Prop :=
  ∀ (s : String) (status : Status), word.word = s → Text.toLower (Text.trim s) ≠ status.text

namespace Catalog

/-- A task with an identifier is stored. -/
def HasTask (c : Catalog) (id : Uuid) : Prop := ∃ t ∈ c.tasks, t.id = id

/-- A project with an identifier is stored. -/
def HasProject (c : Catalog) (id : Uuid) : Prop := ∃ p ∈ c.projects, p.id = id

end Catalog

/-- The conditions under which an operation fails wherever the records are kept, in the order in
which they count, each with the kind of the failure. -/
def Operation.clauses (on : Occasion) (c : Catalog) : Operation → List (Prop × Complaint)
  | .projectNamed _ | .projects | .tasks | .delete _ => []
  | .project id | .projectTasks id | .projectTree id =>
    [(¬ c.HasProject id, .problem .projectNotFound)]
  | .task id _ | .subtasks id _ | .reorder id _ | .complete id | .reopen id =>
    [(¬ c.HasTask id, .problem .taskNotFound)]
  | .search id word =>
    [(word.NamesNoStatus, .problem .invalid), (¬ c.HasProject id, .problem .projectNotFound)]
  | .setStatus id word =>
    [(word.NamesNoStatus, .problem .invalid), (¬ c.HasTask id, .problem .taskNotFound)]
  | .rename id name =>
    [(Unfit 500 name, .problem .invalid), (¬ c.HasTask id, .problem .taskNotFound)]
  | .createProject name =>
    [(Unfit 100 name ∨ name.isWritable = false, .problem .invalid),
      ((∃ p ∈ c.projects, p.name = name) ∨ c.HasProject on.freshId, .problem .alreadyExists)]
  | .createTask name home parent =>
    [(Unfit 500 name, .problem .invalid),
      (name.isWritable = false, .refused),
      (¬ c.HasProject home, .problem .projectNotFound),
      (∃ u, parent = some u ∧ ¬ c.HasTask u, .problem .taskNotFound),
      (∃ s ∈ c.tasks, parent = some s.id ∧ s.project ≠ home, .problem .invalid),
      (c.HasTask on.freshId, .problem .alreadyExists)]

/-- A medium cannot be handed a name. -/
def Medium.Bars (m : Medium) (name : Text) : Prop := m ≠ .memory ∧ name.isWritable = false

/-- The conditions under which an operation fails on a medium.  A project is looked for by its name
before all else, and a task is renamed after all else. -/
def Medium.clauses (m : Medium) (on : Occasion) (c : Catalog) (op : Operation) :
    List (Prop × Complaint) :=
  op.sought?.toList.map (fun name => (m.Bars name, .unwritable)) ++ (op.clauses on c ++
    op.newName?.toList.map fun name => (m.Bars name, .unwritable))

/-- A failure, or that there is none, obeys clauses: the first one whose condition holds says which
kind of failure it is, and if no condition holds there is no failure. -/
inductive Obeys : List (Prop × Complaint) → Option Failure → Prop
  | granted : Obeys [] none
  | refused {offence : Prop} {complaint : Complaint} {rest : List (Prop × Complaint)}
    {e : Failure} (h : offence) (he : e.complaint? = some complaint) :
    Obeys ((offence, complaint) :: rest) (some e)
  | passed {offence : Prop} {complaint : Complaint} {rest : List (Prop × Complaint)}
    {o : Option Failure} (h : ¬ offence) (hrest : Obeys rest o) :
    Obeys ((offence, complaint) :: rest) o

/-- What a result fails with, if it does. -/
def Failure.of? {α : Type} : Except Failure α → Option Failure
  | .ok _ => none
  | .error e => some e

namespace Obeys

variable {l l' : List (Prop × Complaint)} {o o' : Option Failure}

/-- A check with one clause. -/
theorem single {offence : Prop} {complaint : Complaint}
    (h : offence → ∃ e, o = some e ∧ e.complaint? = some complaint) (hno : ¬ offence → o = none) :
    Obeys [(offence, complaint)] o := by
  by_cases hoffence : offence
  · obtain ⟨e, rfl, he⟩ := h hoffence
    exact .refused hoffence he
  · rw [hno hoffence]
    exact .passed hoffence .granted

/-- What comes after the clauses of one check are those of the next, which is made if the one is
passed. -/
theorem or (h : Obeys l o) (h' : o = none → Obeys l' o') : Obeys (l ++ l') (o.or o') := by
  induction h with
  | granted =>
    rw [Option.none_or]
    exact h' rfl
  | refused h he =>
    rw [Option.some_or]
    exact .refused h he
  | passed h _ ih => exact .passed h (ih h')

/-- Contexts leave the kind of a failure alone. -/
theorem inContext (h : Obeys l o) (context : Problem.Context) :
    Obeys l (o.map (Failure.inContext context)) := by
  induction h with
  | granted => exact .granted
  | @refused _ _ _ e h he =>
    refine .refused h ?_
    cases e with
    | problem p => exact he
    | _ => exact he
  | passed h _ ih => exact .passed h ih

end Obeys

/-! ### The clauses of the checks -/

theorem not_unfit_iff {limit : Nat} {name : Text} :
    ¬ Unfit limit name ↔ name.length ≤ limit ∧ name.isBlankText = false := by
  rw [Unfit, not_or, Nat.not_lt, Bool.not_eq_true, and_comm]

/-- A name keeps a rule if it is not unfit and can be written. -/
theorem NameRule.refusal?_eq_none_iff_not {rule : NameRule} {name : Text} :
    rule.refusal? name = none ↔ ¬ (Unfit rule.limit name ∨ name.isWritable = false) := by
  rw [refusal?_eq_none_iff, not_or, not_unfit_iff, Bool.not_eq_false, and_comm]

theorem Task.obeys_checkName (name : Text) :
    Obeys [(Unfit 500 name, .problem .invalid)] (Failure.ofReading? (Task.checkName name)) := by
  unfold checkName
  split
  · rename_i hblank
    exact .refused (.inl hblank) rfl
  split
  · rename_i hlong
    exact .refused (.inr hlong) rfl
  · rename_i hblank hlong
    exact .passed (not_or.2 ⟨hblank, hlong⟩) .granted

/-- What the check of a new task objects to, if the check of requests lets its name pass. -/
theorem Task.obeys_errors (on : Occasion) {name : Text} (home : Uuid) (parent : Option Uuid)
    (h : Task.checkName name = .ok name) :
    Obeys [(name.isWritable = false, .refused)]
      (Failure.ofErrors? "Task" (Task.create on name home parent).errors) := by
  rw [Task.errors_create on home parent h]
  cases hw : name.isWritable with
  | true => exact .passed (fun hbad => nomatch hbad) .granted
  | false => exact .refused rfl rfl

namespace Status

theorem ofText?_eq_none_iff {w : String} :
    ofText? w = none ↔ ∀ status : Status, w ≠ status.text := by
  constructor
  · rintro h status rfl
    rw [ofText?_text] at h
    cases h
  · intro h
    have hpending : w ≠ "pending" := h .pending
    have hcompleted : w ≠ "completed" := h .completed
    rw [ofText?, if_neg hpending, if_neg hcompleted]

theorem obeys_read (word : Scalar) :
    Obeys [(word.NamesNoStatus, .problem .invalid)] (Failure.ofReading? (read word)) := by
  unfold read Scalar.NamesNoStatus
  cases hword : word.word.string? with
  | none =>
    refine .refused (fun s status hs => ?_) rfl
    rw [hs, Text.string?_ofString] at hword
    cases hword
  | some s =>
    rw [Text.string?_eq_some_iff.1 hword, Option.bind_some]
    have hsame : (∀ (s' : String) (status : Status), (s : Text) = s' →
        Text.toLower (Text.trim s') ≠ status.text) ↔
          ofText? (Text.toLower (Text.trim s)) = none := by
      rw [ofText?_eq_none_iff]
      refine ⟨fun h status => h s status rfl, fun h s' status hs => ?_⟩
      rw [← Option.some.inj ((Text.string?_ofString s).symm.trans
        ((congrArg Text.string? hs).trans (Text.string?_ofString s')))]
      exact h status
    rw [hsame]
    -- the word itself must stay closed, or its small letters are evaluated
    generalize Text.toLower (Text.trim s) = w
    cases ofText? w with
    | none => exact .refused rfl rfl
    | some status => exact .passed (fun hnone => nomatch hnone) .granted

end Status

namespace Catalog

variable {c : Catalog}

theorem obeys_noTask (c : Catalog) (id : Uuid) :
    Obeys [(¬ c.HasTask id, .problem .taskNotFound)] (c.noTask? id) := by
  refine .single (fun h => ⟨_, noTask?_of_notMem fun t ht hid => h ⟨t, ht, hid⟩, rfl⟩) fun h => ?_
  obtain ⟨t, ht, rfl⟩ := not_not.1 h
  exact noTask?_of_mem ht

theorem obeys_noProject (c : Catalog) (id : Uuid) :
    Obeys [(¬ c.HasProject id, .problem .projectNotFound)] (c.noProject? id) := by
  refine .single (fun h => ⟨_, noProject?_of_notMem fun p hp hid => h ⟨p, hp, hid⟩, rfl⟩)
    fun h => ?_
  obtain ⟨p, hp, rfl⟩ := not_not.1 h
  exact noProject?_of_mem hp

theorem obeys_taskExists (c : Catalog) (id : Uuid) :
    Obeys [(c.HasTask id, .problem .alreadyExists)] (c.taskExists? id) :=
  .single (fun h => ⟨_, taskExists?_of_mem h, rfl⟩) fun h =>
    taskExists?_of_notMem fun t ht hid => h ⟨t, ht, hid⟩

/-- A parent is refused if it is not stored, or else if it is in another project. -/
theorem obeys_foreignParent (hids : c.UniqueIds) (home : Uuid) (parent : Option Uuid) :
    Obeys [(∃ u, parent = some u ∧ ¬ c.HasTask u, .problem .taskNotFound),
      (∃ s ∈ c.tasks, parent = some s.id ∧ s.project ≠ home, .problem .invalid)]
      (c.foreignParent? home parent) := by
  cases parent with
  | none =>
    refine .passed ?_ (.passed ?_ .granted)
    · rintro ⟨u, hu, -⟩
      cases hu
    · rintro ⟨s, -, hs, -⟩
      cases hs
  | some u =>
    rw [foreignParent?]
    cases hfind : c.find? u with
    | none =>
      have hno : ¬ c.HasTask u := by
        rintro ⟨s, hs, hid⟩
        exact find?_eq_none_iff.1 hfind s hs hid
      exact .refused ⟨u, rfl, hno⟩ rfl
    | some above =>
      obtain ⟨habove, rfl⟩ := hids.find?_eq_some_iff.1 hfind
      refine .passed ?_ ?_
      · rintro ⟨v, hv, hno⟩
        cases hv
        exact hno ⟨above, habove, rfl⟩
      dsimp only
      split
      · rename_i hsame
        refine .passed ?_ .granted
        rintro ⟨s, hs, hsid, hother⟩
        rw [← hids.eq habove hs (Option.some.inj hsid)] at hother
        exact hother hsame
      · rename_i hother
        exact .refused ⟨above, habove, rfl, hother⟩ rfl

/-- A new project is refused for its name, or else for what is stored.  The name that is taken is
looked for first, but no stored project has an unfit one. -/
theorem obeys_newProject (hvalid : ∀ p ∈ c.projects, p.errors = []) (name : Text) (id : Uuid) :
    Obeys [(Unfit 100 name ∨ name.isWritable = false, .problem .invalid),
      ((∃ p ∈ c.projects, p.name = name) ∨ c.HasProject id, .problem .alreadyExists)]
      ((c.projectName? name).or (c.projectExists? id)) := by
  have hnamed : c.projectNamed? name = none ↔ ¬ ∃ p ∈ c.projects, p.name = name := by
    simp [projectNamed?]
  cases hrule : NameRule.project.refusal? name with
  | some why =>
    have hunfit : Unfit 100 name ∨ name.isWritable = false := by
      by_contra hfit
      rw [NameRule.refusal?_eq_none_iff_not.2 hfit] at hrule
      cases hrule
    have hfree : ¬ ∃ p ∈ c.projects, p.name = name := by
      rintro ⟨p, hp, rfl⟩
      rw [Project.errors_eq_nil.1 (hvalid p hp)] at hrule
      cases hrule
    rw [projectName?, hnamed.2 hfree, hrule]
    exact .refused hunfit rfl
  | none =>
    refine .passed (NameRule.refusal?_eq_none_iff_not.1 hrule) ?_
    by_cases htaken : ∃ p ∈ c.projects, p.name = name
    · have hsome : (c.projectNamed? name).isSome := by
        rw [Option.isSome_iff_ne_none]
        exact fun hnone => hnamed.1 hnone htaken
      rw [projectName?, if_pos hsome]
      exact .refused (.inl htaken) rfl
    · rw [projectName?, hnamed.2 htaken, hrule]
      by_cases hid : c.HasProject id
      · rw [projectExists?_of_mem hid]
        exact .refused (.inr hid) rfl
      · rw [projectExists?_of_notMem fun p hp h => hid ⟨p, hp, h⟩]
        exact .passed (not_or.2 ⟨htaken, hid⟩) .granted

end Catalog

/-- **Refusals by causes.**  What an operation is refused for obeys its clauses. -/
theorem Operation.obeys_refusal {c : Catalog} (h : c.Sound) (on : Occasion) (op : Operation) :
    Obeys (op.clauses on c) (op.refusal? on c) := by
  have hids := h.wellFormed.ids
  cases op <;> rw [refusal?, clauses]
  case projectNamed | projects | tasks | delete => exact .granted
  case project id | projectTasks id | projectTree id => exact c.obeys_noProject id
  case task id _ | subtasks id _ | reorder id _ | complete id | reopen id => exact c.obeys_noTask id
  case search id word => exact (Status.obeys_read word).or fun _ => c.obeys_noProject id
  case setStatus id word => exact (Status.obeys_read word).or fun _ => c.obeys_noTask id
  case rename id name =>
    exact (Task.obeys_checkName name).or fun _ => (c.obeys_noTask id).inContext _
  case createProject name => exact Catalog.obeys_newProject h.projects name on.freshId
  case createTask name home parent =>
    have hplace := (c.obeys_noProject home).or fun _ => Catalog.obeys_foreignParent hids home parent
    refine (Task.obeys_checkName name).or fun hnone => ?_
    exact (Task.obeys_errors on home parent (Task.checkName_of_granted hnone)).or fun _ =>
      (hplace.or fun _ => c.obeys_taskExists on.freshId).inContext _

/-! ### All media -/

/-- An operation fails with what it is refused for. -/
theorem Effect.failure_eq {on : Occasion} {c c' : Catalog} {op : Operation}
    {r : Except Failure Answer} (hids : c.UniqueIds) (h : Effect on c op r c') :
    Failure.of? r = op.refusal? on c := by
  cases r with
  | ok a => exact (h.refusal?_eq_none hids).symm
  | error e => exact h.refusal?_eq_some.symm

namespace Medium

variable {m : Medium} {name? : Option Text}

/-- A medium lets a name pass that it is not kept from. -/
theorem obeys_bars_none (h : m ≠ .memory → ∀ name ∈ name?, name.isWritable = true) :
    Obeys (name?.toList.map fun name => (m.Bars name, .unwritable)) none := by
  cases name? with
  | none => exact .granted
  | some name =>
    exact .passed (fun hbars => Bool.eq_false_iff.1 hbars.2 (h hbars.1 name rfl)) .granted

theorem obeys_bars_some {name : Text} (hm : m ≠ .memory) (hname : name? = some name)
    (hbad : name.isWritable = false) :
    Obeys (name?.toList.map fun name => (m.Bars name, .unwritable)) (some (.unwritable name)) := by
  subst hname
  exact .refused ⟨hm, hbad⟩ rfl

/-- A name of 101 surrogates, too long for a project but not for a task. -/
def longStray : Text := ⟨List.replicate 101 .stray⟩

end Medium

end Agenda
