import Agenda.Proofs.History.Media

/-!
# Queries

The operations that only look show the stored tasks in several ways: as trees, as a list for each
project, as a list for each status of a project, and as one list of all.

**The queries agree** (`Medium.queries_agree`).  Wherever the records are kept and whatever has
happened to them, the trees of a project, written out, have the tasks of the list of the project,
each once, with siblings in the order `0, 1, 2, …`; the lists of the two statuses are the list of
the project taken apart; and the list of all tasks has the tasks of all projects, which are all the
tasks that are stored.  Only a session that was broken off has no answer.

No query writes, so on every medium it shows what the catalog shows (`Medium.step_look`); the rest
is what is known of the trees of a sound catalog.
-/

namespace Agenda

/-- The answers to queries about the stored projects and tasks agree: `trees`, `tasks` and `found`
are what is shown for a project, as trees, as a list, and as a list for a status; `all` is the list
of all tasks. -/
structure QueriesAgree (ask : Operation → Except Failure Answer) (projects : List Project)
    (stored : List Task) (trees : Uuid → List Tree) (tasks : Uuid → List Task)
    (found : Uuid → Status → List Task) (all : List Task) : Prop where
  showsTrees : ∀ p ∈ projects, ask (.projectTree p.id) = .ok (.tasks (trees p.id))
  showsTasks : ∀ p ∈ projects, ask (.projectTasks p.id) = .ok (.ofTasks (tasks p.id))
  showsFound : ∀ p ∈ projects, ∀ word status, Status.read word = .ok status →
    ask (.search p.id word) = .ok (.ofTasks (found p.id status))
  showsAll : ask .tasks = .ok (.ofTasks all)
  /-- Each task of a project is in one place of its trees, and nothing else is. -/
  flat : ∀ p ∈ projects, (Tree.flattenAll (trees p.id)).Perm (tasks p.id) ∧ (tasks p.id).Nodup
  /-- Root tasks stand in the order `0, 1, 2, …`. -/
  roots : ∀ p ∈ projects,
    ((trees p.id).map Tree.task).map (·.order) = places (trees p.id).length
  /-- So do siblings at all levels, below the parent that they name. -/
  levels : ∀ p ∈ projects, Tree.EachAll Task.Heads (trees p.id)
  /-- No task has both statuses. -/
  disjoint : ∀ p ∈ projects, (found p.id .pending).Disjoint (found p.id .completed)
  /-- Every task has one of them. -/
  together : ∀ p ∈ projects,
    (found p.id .pending ++ found p.id .completed).Perm (tasks p.id)
  /-- A search leaves the tasks that it finds in their order. -/
  succession : ∀ p ∈ projects, ∀ status, (found p.id status).Sublist (tasks p.id)
  /-- All tasks are the tasks of all projects. -/
  union : all.Perm (projects.flatMap fun p => tasks p.id)
  /-- All tasks are shown, and nothing but what is stored. -/
  complete : all.Perm stored

variable {c : Catalog} {on : Occasion} {op : Operation}

/-- The lists of the two statuses are a list taken apart. -/
theorem perm_filter_status (ts : List Task) :
    (ts.filter (·.status = .pending) ++ ts.filter (·.status = .completed)).Perm ts := by
  have hother : (fun t : Task => decide (t.status = .completed)) =
      fun t => !decide (t.status = .pending) := by
    funext t
    cases t.status <;> rfl
  rw [hother]
  exact List.filter_append_perm _ ts

namespace Medium

/-- **Looking at any medium.**  An operation that only looks leaves the medium as it is, and it is
refused or shows its view, unless it looks for what the medium cannot look for. -/
theorem step_look (m : Medium) (h : c.Sound) (hfits : c.Fits m.limit) (on : Occasion)
    (hop : op.IsLook) :
    (m.step on op (m.holding c)).2 = m.holding c ∧
      (m.Seeks op → op.Looked on c (m.step on op (m.holding c)).1) := by
  have hmeets : (op.program on).Meets on.now (fun _ => True)
      (fun r c' => c' = c ∧ op.Looked on c r) c :=
    Operation.meets_look h.wellFormed.ids trivial hop
  obtain ⟨hsame, hlooked⟩ : (inMemory on op c).2 = c ∧ op.Looked on c (inMemory on op c).1 :=
    hmeets.run
  rcases m.step_holding h hfits on op with
    ⟨-, -, hstep⟩ | ⟨-, hover, -⟩ | ⟨hm, name, hsought, hname, hstep⟩
  · rw [hstep, hsame]
    exact ⟨rfl, fun _ => hlooked⟩
  · rw [hsame] at hover
    exact absurd hfits hover
  · rw [hstep]
    exact ⟨rfl, fun hseeks => absurd (hseeks hm name hsought) (Bool.eq_false_iff.1 hname)⟩

/-- What is asked for is shown, unless it is refused. -/
theorem step_view (m : Medium) (h : c.Sound) (hfits : c.Fits m.limit) (hseeks : m.Seeks op)
    (on : Occasion) {a : Answer} (hno : op.refusal? on c = none) (ha : op.view? c = some a) :
    (m.step on op (m.holding c)).1 = .ok a := by
  have hlooked := (m.step_look h hfits on (Operation.isLook_of_view ha)).2 hseeks
  generalize (m.step on op (m.holding c)).1 = r at hlooked ⊢
  cases hlooked with
  | refused he =>
    rw [hno] at he
    cases he
  | shown _ ha' =>
    rw [ha] at ha'
    rw [Option.some.inj ha']

/-- **The queries agree** on every medium after every history, unless it is a spent session. -/
theorem queries_agree (m : Medium) (h : History) (on : Occasion) :
    m.Spent (m.after h) ∨
      ∃ c trees tasks found all, m.records (m.after h) = .ok c ∧
        (∀ op : Operation, op.IsLook → (m.step on op (m.after h)).2 = m.after h) ∧
        QueriesAgree (fun op => (m.step on op (m.after h)).1) c.projects c.tasks trees tasks found
          all := by
  rcases m.after_cases h with ⟨c, hc, hfits, hafter⟩ | ⟨hspent, -⟩
  · right
    rw [hafter]
    have hshows {op : Operation} {a : Answer} (hsought : op.sought? = none)
        (hno : op.refusal? on c = none) (ha : op.view? c = some a) :
        (m.step on op (m.holding c)).1 = .ok a :=
      m.step_view hc hfits (m.seeks_of_sought hsought) on hno ha
    refine ⟨c, c.forest, c.tasksOf, fun p status => (c.tasksOf p).filter (·.status = status),
      Catalog.byAge c.tasks, m.records_holding hc hfits,
      fun op hop => (m.step_look hc hfits on hop).1, ?_⟩
    constructor
    case showsTrees => exact fun p hp => hshows rfl (Catalog.noProject?_of_mem hp) rfl
    case showsTasks => exact fun p hp => hshows rfl (Catalog.noProject?_of_mem hp) rfl
    case showsFound =>
      intro p hp word status hword
      refine hshows rfl ?_ ?_
      · rw [Operation.refusal?, hword, Catalog.noProject?_of_mem hp]
        rfl
      · rw [Operation.view?, hword]
        rfl
    case showsAll => exact hshows rfl rfl rfl
    case flat => exact fun p _ => ⟨hc.perm_flatten_forest p.id, hc.nodup_tasksOf p.id⟩
    case roots =>
      intro p _
      have hlength : (c.forest p.id).length = (c.roots p.id).length := List.length_map _
      rw [Catalog.map_task_forest, hlength, Catalog.roots_eq_ranked]
      exact hc.dense.map_order_ranked _
    case levels =>
      intro p _
      refine Tree.eachAll_iff.2 fun tree htree => ?_
      obtain ⟨t, ht, rfl⟩ := List.mem_map.1 htree
      exact hc.each_tree (Catalog.mem_roots.1 ht).1
    case disjoint =>
      intro p _ t hpending hcompleted
      have hp := decide_eq_true_iff.1 (List.mem_filter.1 hpending).2
      have hd := decide_eq_true_iff.1 (List.mem_filter.1 hcompleted).2
      rw [hp] at hd
      cases hd
    case together => exact fun p _ => perm_filter_status _
    case succession => exact fun p _ status => List.filter_sublist
    case union => exact hc.perm_tasksOf
    case complete => exact perm_sortOn _ _
  · exact .inl hspent

end Medium

end Agenda
