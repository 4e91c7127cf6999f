import Agenda.CommandLine.Command
import Agenda.Operation
import Agenda.Proofs.Database.Atomic
import Agenda.Proofs.Operation.Plain
import Agenda.Proofs.Program.Faults

/-!
# All or nothing

What is done in a session is a deed: a request to the library, to an engine or to a store.  Whatever
a deed meets on its way, be it a failure of its own, a row that cannot be read back, a number that
does not fit, a name that cannot be written, or a fault put into any of its requests, a session with
one deed, a transaction of several and a command leave the database as it was or keep everything
(`Database.all_or_nothing`).

Keeping everything means that the database is what the same deeds make of it one after another, each
in a session of its own.  For a transaction these are the deeds of its list; for a command they are
those of its script, which tells what the command asks of the library and what it makes of the
answers (`CommandLine.Command.program_eq`).
-/

namespace Agenda

open Program CommandLine

/-! ### Deeds -/

/-- What can be done in a session. -/
inductive Deed
  /-- A request to the library. -/
  | operation (op : Operation)
  /-- A request to create a project, as a command makes it. -/
  | createProject (name : Argument Text)
  /-- A request to create a task, as a command makes it. -/
  | createTask (name : Argument Text) (project : Uuid) (parent : Option (Argument Uuid))
  /-- A request to rename a task, as a command makes it. -/
  | rename (id : Uuid) (name : Argument Text)
  /-- A request to put a task at a place, as a command makes it. -/
  | reorder (id : Uuid) (place : Argument Int)
  /-- The siblings of a stored task, with the task. -/
  | siblings (id : Uuid)
  /-- A task is stored as the last of its group. -/
  | append (t : Task)
  /-- A task is removed with everything below it. -/
  | remove (id : Uuid)
  /-- A task is moved in its group. -/
  | move (id : Uuid) (place : Int)
  /-- A task is completed. -/
  | complete (id : Uuid)
  /-- A task is reopened. -/
  | reopen (id : Uuid)
  /-- A task gets the status that a word names. -/
  | setWord (id : Uuid) (word : Scalar)
  /-- A request to a store, with the reply seen as an answer in some way. -/
  | request (asked : Store.Call) (view : asked.Reply → Answer)

namespace Deed

/-- What a deed does on an occasion. -/
def plan (on : Occasion) : Deed → Program (Plan Answer)
  | .operation op => op.plan on
  | .createProject name => Plan.ofProgram (Answer.project <$> Command.createProject on name)
  | .createTask name project parent =>
    Plan.map .ofTask (Command.createTask on name project parent)
  | .rename id name => Plan.ofProgram (Answer.ofTask <$> Command.rename id name)
  | .reorder id place => Plan.map .ofTask (Command.move id place)
  | .siblings id => Plan.ofProgram do
    let t ← (ask (.task id) : Program Task)
    return .ofTasks (← Siblings.fetch t)
  | .append t => Plan.ofProgram (Answer.ofTask <$> Siblings.append t)
  | .remove id => Plan.ofProgram (Answer.ofTask? <$> Siblings.remove id)
  | .move id place => Plan.ofProgram (Answer.ofTask <$> Siblings.move id place)
  | .complete id => Plan.ofProgram (Answer.ofTask <$> Completion.complete id)
  | .reopen id => Plan.ofProgram (Answer.ofTask <$> Completion.reopen id)
  | .setWord id word => Plan.ofProgram (Answer.ofTask <$> Completion.setWord id word)
  | .request asked view => Plan.ofProgram (view <$> ask asked)

/-- A deed from beginning to end. -/
def program (on : Occasion) (deed : Deed) : Program Answer := Plan.alone (deed.plan on)

/-- A deed as work in a session, perhaps with a fault in it. -/
def work (on : Occasion) (fault : Option Fault) (deed : Deed) : Session.Work Answer :=
  .ofProgram on.now (Plan.alone (Plan.inject fault (deed.plan on)))

end Deed

/-! ### Deeds are steady -/

section Steady

variable {P : Text → Prop} {G : Failure → Prop} {k : Nat}

namespace CommandLine.Command

theorem steady_createProject (on : Occasion) (name : Argument Text) :
    (createProject on name).Steady (fun _ => True) G k := by
  cases name with
  | value name => exact Projects.steady_create on trivial
  | hollow =>
    refine (regular_log _ _ _).bind fun _ => ?_
    exact (regular_ask fun _ _ => trivial).bind fun _ => steady_fail _

theorem steady_createTask (on : Occasion) (name : Argument Text) (project : Uuid)
    (parent : Option (Argument Uuid)) :
    (Plan.alone (createTask on name project parent)).Steady P G (k + 1) := by
  have hname : (checkedName name).Steady P G (k + 1) := by
    cases name with
    | value name => exact regular_ofExcept _ fun _ => trivial
    | hollow => exact steady_fail _
  unfold createTask
  rw [Plan.alone_bind]
  refine (regular_log _ _ _).bind fun _ => ?_
  rw [Plan.alone_bind]
  refine hname.bind fun name => ?_
  rw [Plan.alone_bind]
  exact (Tasks.regular_validate _ _).bind fun _ => Tasks.steady_createNamed on name project _

theorem steady_rename (id : Uuid) (name : Argument Text) :
    (rename id name).Steady P G (k + 1) := by
  cases name with
  | value name => exact Tasks.steady_rename id name
  | hollow => exact steady_fail _

theorem steady_move (id : Uuid) (place : Argument Int) :
    (Plan.alone (move id place)).Steady P G (k + 1) := by
  cases place with
  | value place => exact Tasks.steady_reorder id place
  | hollow => exact Tasks.steady_reorderBy id (Siblings.steady_moveBy id _)

end CommandLine.Command

/-- **Every deed is steady.** -/
theorem Deed.steady (hG : ∀ e, G e → e.isProblem .taskNotFound = false) (on : Occasion)
    (deed : Deed) : (deed.program on).Steady (fun _ => True) G (k + 1) := by
  unfold program
  cases deed with
  | operation op => exact op.steady_alone (fun _ _ => trivial) hG on
  | createProject name =>
    rw [plan, Plan.alone_ofProgram]
    exact (Command.steady_createProject on name).map
  | createTask name project parent =>
    rw [plan, Plan.alone_map]
    exact (Command.steady_createTask on name project parent).map
  | rename id name =>
    rw [plan, Plan.alone_ofProgram]
    exact (Command.steady_rename id name).map
  | reorder id place =>
    rw [plan, Plan.alone_map]
    exact (Command.steady_move id place).map
  | siblings id =>
    rw [plan, Plan.alone_ofProgram]
    exact (steady_ask _ rfl).bind fun t => (Siblings.steady_fetch t).bind fun _ => regular_pure _
  | append t =>
    rw [plan, Plan.alone_ofProgram]
    exact (Siblings.steady_append t).map
  | remove id =>
    rw [plan, Plan.alone_ofProgram]
    exact (Siblings.steady_remove hG id).map
  | move id place =>
    rw [plan, Plan.alone_ofProgram]
    exact (Siblings.steady_moveBy id _).map
  | complete id =>
    rw [plan, Plan.alone_ofProgram]
    exact (Completion.steady_complete id).map
  | reopen id =>
    rw [plan, Plan.alone_ofProgram]
    exact (Completion.steady_reopen id).map
  | setWord id word =>
    rw [plan, Plan.alone_ofProgram]
    exact ((regular_ofExcept _ fun _ => trivial).bind (Completion.steady_set id)).map
  | request asked view =>
    rw [plan, Plan.alone_ofProgram]
    exact (regular_ask fun _ _ => trivial).map

end Steady

namespace Deed

/-- What the database cannot take is the end of a deed. -/
theorem relays_isUnfit (on : Occasion) (deed : Deed) :
    (deed.program on).Relays Failure.IsUnfit 1 := by
  refine (deed.steady (k := 0) (fun e he => ?_) on).relays
  cases e with
  | problem => exact he.elim
  | _ => rfl

/-- A deed with a fault in it is atomic, with what is left of the fault as a part of its result. -/
theorem atomic_inject (on : Occasion) (fault : Option Fault) (deed : Deed) :
    (Session.Work.ofProgram on.now ((deed.program on).inject fault)).Atomic :=
  ((deed.relays_isUnfit on).inject fault).atomic (fun _ he => he) on.now

/-- Deeds are atomic work. -/
theorem atomic (on : Occasion) (fault : Option Fault) (deed : Deed) :
    (deed.work on fault).Atomic := by
  have hrelays := ((deed.relays_isUnfit on).inject fault).bind
    (f := fun x => (pure x.1 : Program Answer)) fun _ => trivial
  unfold work
  rw [Plan.alone_inject, map_eq_pure_bind]
  exact hrelays.atomic (fun _ he => he) on.now

end Deed

/-! ### Scripts -/

/-- Deeds one after another, each chosen by the answers before it, and what they come to. -/
inductive Script (α : Type)
  | ended (result : Except Failure α)
  | step (deed : Deed) (next : Answer → Script α)

namespace Script

variable {α β : Type}

/-- The script as one program. -/
def program (on : Occasion) : Script α → Program α
  | .ended result => .done result
  | .step deed next => deed.program on >>= fun answer => (next answer).program on

/-- The script with a session for each deed, up to and with the first that fails.  A fault goes on
from one deed to the next. -/
def separately (on : Occasion) : Script α → Option Fault → Database → Except Failure α × Database
  | .ended result, _, db => (result, db)
  | .step deed next, fault, db =>
    let ran := db.inSession (.ofProgram on.now ((deed.program on).inject fault))
    match ran.result with
    | .error e => (.error e, ran.store)
    | .ok (answer, left) => (next answer).separately on left ran.store

/-- A script with what it cannot do without. -/
def need (slot : Slot) (value : Option β) (next : β → Script α) : Script α :=
  match value with
  | some b => next b
  | none => .ended (.error (.absentArgument slot.word))

theorem atomic (on : Occasion) (script : Script α) (fault : Option Fault) :
    (Session.Work.ofProgram on.now ((script.program on).inject fault)).Atomic := by
  have hrelays : (script.program on).Relays Failure.IsUnfit 1 := by
    induction script with
    | ended result => exact trivial
    | step deed next ih => exact (deed.relays_isUnfit on).bind ih
  exact (hrelays.inject fault).atomic (fun _ he => he) on.now

/-- **One session or several.**  In one session a script has the result that it has with a session
for each deed, and if it succeeds it leaves the same database. -/
theorem inSession_eq (on : Occasion) (script : Script α) (fault : Option Fault) (db : Database) :
    let ran := db.inSession (.ofProgram on.now ((script.program on).inject fault))
    ran.result.map (·.1) = (script.separately on fault db).1 ∧
      ∀ x, ran.result = .ok x → ran.store = (script.separately on fault db).2 := by
  -- on the script: one deed after another
  induction script generalizing fault db with
  | ended result =>
    dsimp only
    cases result with
    | ok a => cases fault <;> exact ⟨rfl, fun _ _ => rfl⟩
    | error e => cases fault <;> exact ⟨rfl, fun _ hx => nomatch hx⟩
  | step deed next ih =>
    have hbind := Program.inSession_bind on.now (deed.atomic_inject on fault)
      (f := fun x => ((next x.1).program on).inject x.2) (fun x => (next x.1).atomic on x.2) db
    rw [program, inject_bind, separately]
    dsimp only at hbind ⊢
    cases hran : (db.inSession (.ofProgram on.now ((deed.program on).inject fault))).result with
    | error e =>
      rw [hran] at hbind
      dsimp only at hbind ⊢
      rw [hbind]
      exact ⟨rfl, fun _ hx => nomatch hx⟩
    | ok x =>
      rw [hran] at hbind
      dsimp only at hbind ⊢
      obtain ⟨hresult, hstore⟩ := hbind
      obtain ⟨hresult', hstore'⟩ := ih x.1 x.2
        (db.inSession (.ofProgram on.now ((deed.program on).inject fault))).store
      rw [hresult]
      exact ⟨hresult', fun y hy => (hstore y hy).trans (hstore' y hy)⟩

end Script

/-! ### The scripts of commands -/

namespace CommandLine.Command

/-- What a command asks of the library, and the lines that it makes of the answers. -/
def script (a : Arguments) : Command → Script (List Text)
  | .addProject =>
    .need .name a.name fun name => .step (.createProject name) fun
      | .project p => .ended (.ok ["Created project '" ++ p.name ++ s!"' ({p.id.text})"])
      | _ => .ended (.ok [])
  | .listProjects => .step (.operation .projects) fun
    | .projects projects => .ended (.ok (projects.map fun p => p.name ++ s!" ({p.id.text})"))
    | _ => .ended (.ok [])
  | .addTask =>
    .need .project a.project fun project => .step (.operation (.projectNamed project)) fun
      | .project p => .need .name a.name fun name => .step (.createTask name p.id a.parent) fun
        | .task t => .ended (.ok ["Created task '" ++ t.task.name ++
            s!"' ({t.task.id.text}) at order {t.task.order}"])
        | _ => .ended (.ok [])
      | _ => .ended (.error (.of (.noProjectNamed project)))
  | .renameTask =>
    .need .task a.task fun id => .need .name a.name fun name => .step (.rename id name) fun
      | .task t => .ended (.ok [s!"Renamed task {t.task.id.text} to '" ++ t.task.name ++ "'"])
      | _ => .ended (.ok [])
  | .moveTask =>
    .need .task a.task fun id => .need .place a.place fun place => .step (.reorder id place) fun
      | .task t => .ended (.ok [s!"Task {t.task.id.text} is now at order {t.task.order}"])
      | _ => .ended (.ok [])
  | .completeTask =>
    .need .task a.task fun id => .step (.operation (.complete id)) fun
      | .task t => .ended (.ok [s!"Completed task {t.task.id.text}"])
      | _ => .ended (.ok [])
  | .reopenTask =>
    .need .task a.task fun id => .step (.operation (.reopen id)) fun
      | .task t => .ended (.ok [s!"Task {t.task.id.text} is pending"])
      | _ => .ended (.ok [])
  | .removeTask =>
    .need .task a.task fun id => .step (.operation (.delete id)) fun
      | .task t => .ended (.ok ["Deleted task '" ++ t.task.name ++ s!"' ({t.task.id.text})"])
      | _ => .ended (.ok [s!"Task {id.text} does not exist, nothing deleted"])
  | .showTask =>
    .need .task a.task fun id => .step (.operation (.task id true)) fun
      | .task t => .ended (.ok (Outline.lines 0 [t]))
      | _ => .ended (.ok [])
  | .showTree =>
    .need .project a.project fun project => .step (.operation (.projectNamed project)) fun
      | .project p => .step (.operation (.projectTree p.id)) fun
        | .tasks trees => .ended (.ok (p.name :: Outline.lines 1 trees))
        | _ => .ended (.ok [])
      | _ => .ended (.error (.of (.noProjectNamed project)))

/-- What follows the look for a project that has to be there. -/
theorem projectNamed_bind {α : Type} (name : Text) (f : Project → Program α) :
    projectNamed name >>= f = (ask (.projectNamed name) : Program (Option Project)) >>= fun
      | some p => f p
      | none => fail (.of (.noProjectNamed name)) := by
  unfold projectNamed
  rw [LawfulMonad.bind_assoc]
  refine congrArg _ (funext fun found => ?_)
  cases found <;> rfl

/-- **A command is its script.** -/
theorem program_eq (on : Occasion) (a : Arguments) (c : Command) :
    c.program on a = (c.script a).program on := by
  cases c with
  | addProject =>
    unfold program script Script.need
    cases a.name with
    | none => rfl
    | some name =>
      rw [Script.program, Deed.program, Deed.plan, Plan.alone_ofProgram, bind_map_left]
      rfl
  | listProjects =>
    unfold program script
    rw [Script.program, Deed.program, Deed.plan, Operation.plan, Plan.alone_ofProgram,
      bind_map_left]
    rfl
  | addTask =>
    unfold program script Script.need
    cases a.project with
    | none => rfl
    | some project =>
      change (projectNamed project >>= _) = _
      rw [projectNamed_bind, Script.program, Deed.program, Deed.plan, Operation.plan,
        Plan.alone_ofProgram, bind_map_left]
      refine congrArg _ (funext fun found => ?_)
      rcases found with _ | p
      · rfl
      · cases a.name with
        | none => rfl
        | some name =>
          change (Plan.alone (createTask on name p.id a.parent) >>= _) =
            Deed.program on (.createTask name p.id a.parent) >>= _
          rw [Deed.program, Deed.plan, Plan.alone_map, bind_map_left]
          rfl
  | renameTask =>
    unfold program script Script.need
    cases a.task with
    | none => rfl
    | some id =>
      cases a.name with
      | none => rfl
      | some name =>
        dsimp only
        rw [Script.program, Deed.program, Deed.plan, Plan.alone_ofProgram, bind_map_left]
        rfl
  | moveTask =>
    unfold program script Script.need
    cases a.task with
    | none => rfl
    | some id =>
      cases a.place with
      | none => rfl
      | some place =>
        dsimp only
        rw [Script.program, Deed.program, Deed.plan, Plan.alone_map, bind_map_left]
        rfl
  | completeTask | reopenTask =>
    unfold program script Script.need
    cases a.task with
    | none => rfl
    | some id =>
      dsimp only
      rw [Script.program, Deed.program, Deed.plan, Operation.plan, Plan.alone_map, bind_map_left]
      rfl
  | removeTask =>
    unfold program script Script.need
    cases a.task with
    | none => rfl
    | some id =>
      dsimp only
      rw [Script.program, Deed.program, Deed.plan, Operation.plan, Plan.alone_map, bind_map_left]
      change Plan.alone (Tasks.delete id) >>= _ = _
      refine congrArg _ (funext fun removed => ?_)
      cases removed <;> rfl
  | showTask =>
    unfold program script Script.need
    cases a.task with
    | none => rfl
    | some id =>
      dsimp only
      rw [Script.program, Deed.program, Deed.plan, Operation.plan, Plan.alone_ofProgram,
        bind_map_left]
      rfl
  | showTree =>
    unfold program script Script.need
    cases a.project with
    | none => rfl
    | some project =>
      change (projectNamed project >>= _) = _
      rw [projectNamed_bind, Script.program, Deed.program, Deed.plan, Operation.plan,
        Plan.alone_ofProgram, bind_map_left]
      refine congrArg _ (funext fun found => ?_)
      rcases found with _ | p
      · rfl
      · change (Tasks.projectTree p.id >>= _) =
          Deed.program on (.operation (.projectTree p.id)) >>= _
        rw [Deed.program, Deed.plan, Operation.plan, Plan.alone_ofProgram, bind_map_left]
        rfl

/-- **A command in one session.**  A command that fails leaves the database as it was, and one that
succeeds leaves what its script leaves with a session for each deed. -/
theorem perform_eq (db : Database) (on : Occasion) (fault : Option Fault) (word : String)
    (a : Arguments) :
    (∀ e, (perform db on fault word a).result = .error e →
        (perform db on fault word a).store = db) ∧
      ∀ lines, (perform db on fault word a).result = .ok lines →
        ∃ c, ofWord? word = some c ∧
          (c.script a).separately on fault db =
            (.ok lines, (perform db on fault word a).store) := by
  unfold perform
  cases ofWord? word with
  | none => exact ⟨fun _ _ => rfl, fun _ hok => nomatch hok⟩
  | some c =>
    obtain ⟨hresult, hstore⟩ := (c.script a).inSession_eq on fault db
    rw [← program_eq] at hresult hstore
    dsimp only at hresult hstore ⊢
    constructor
    · intro e he
      cases hran : (db.inSession (.ofProgram on.now ((c.program on a).inject fault))).result with
      | ok x =>
        rw [hran] at he
        cases he
      | error e' => exact Database.inSession_of_error hran
    · intro lines hok
      cases hran : (db.inSession (.ofProgram on.now ((c.program on a).inject fault))).result with
      | error e =>
        rw [hran] at hok
        cases hok
      | ok x =>
        exact ⟨c, rfl, Prod.ext (hresult.symm.trans hok) (hstore x hran).symm⟩

end CommandLine.Command

/-! ### All or nothing -/

/-- **All or nothing.**  A session with one deed, a transaction and a command each leave the
database as it was, if they fail or are to be aborted, or they keep everything: the session of the
deed can be committed, and the database is what the deeds of a transaction or of a command make of
it in sessions of their own. -/
theorem Database.all_or_nothing (db : Database) :
    (∀ (on : Occasion) (fault : Option Fault) (deed : Deed),
      (∀ e, (db.inSession (deed.work on fault)).result = .error e →
          (db.inSession (deed.work on fault)).store = db) ∧
        ∀ a, (db.inSession (deed.work on fault)).result = .ok a →
          (deed.work on fault (Session.start db)).store.commit =
            .ok (db.inSession (deed.work on fault)).store) ∧
    (∀ (deeds : List (Occasion × Option Fault × Deed)) (abort : Bool),
      let works := deeds.map fun d => d.2.2.work d.1 d.2.1
      let kept := db.transact works abort
      kept.results = (separately works db).1 ∧
        (kept.committed = true ↔ abort = false ∧ ∀ r ∈ kept.results, ∃ a, r = .ok a) ∧
        (kept.committed = true → kept.database = (separately works db).2) ∧
        (kept.committed = false → kept.database = db)) ∧
    ∀ (on : Occasion) (fault : Option Fault) (word : String) (a : Arguments),
      (∀ e, (perform db on fault word a).result = .error e →
          (perform db on fault word a).store = db) ∧
        ∀ lines, (perform db on fault word a).result = .ok lines →
          ∃ c, Command.ofWord? word = some c ∧
            (c.script a).separately on fault db =
              (.ok lines, (perform db on fault word a).store) := by
  refine ⟨fun on fault deed => ⟨?_, ?_⟩, fun deeds abort => ?_, ?_⟩
  · exact fun e he => inSession_of_error he
  · exact fun a ha => (deed.atomic on fault).commit ha
  · have hatomic : ∀ work ∈ deeds.map fun d => d.2.2.work d.1 d.2.1, work.Atomic := by
      intro work hwork
      obtain ⟨d, -, rfl⟩ := List.mem_map.1 hwork
      exact d.2.2.atomic d.1 d.2.1
    have htransact := transact_eq hatomic db abort
    dsimp only
    rw [htransact.1]
    exact ⟨rfl, htransact.2⟩
  · exact fun on fault word a => Command.perform_eq db on fault word a

end Agenda
