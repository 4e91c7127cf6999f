import Agenda.Sorting
import Agenda.Task.Basic

/-!
# Task trees

A task together with the tasks below it.  `Tree.assemble` hangs a flat list of tasks below a root
by the parents that they name, siblings in ascending order; `flatten` is the way back, each task
before the tasks below it.  `Outline.lines` writes trees as indented lines.
-/

namespace Agenda

/-- A task with its subtasks. -/
inductive Tree
  | node (task : Task) (subtasks : List Tree)
  deriving Repr, Inhabited

namespace Tree

/-- A property of forests holds of all if it holds of the empty one, and of a tree before other
trees whenever it holds of the subtasks and of the other trees. -/
@[elab_as_elim]
theorem forestInduction {motive : List Tree → Prop} (nil : motive [])
    (cons : ∀ task subtasks ts, motive subtasks → motive ts →
      motive (.node task subtasks :: ts)) : ∀ ts, motive ts
  | [] => nil
  | .node task subtasks :: ts =>
    cons task subtasks ts (forestInduction nil cons subtasks) (forestInduction nil cons ts)

def task : Tree → Task
  | .node task _ => task

def subtasks : Tree → List Tree
  | .node _ subtasks => subtasks

def leaf (task : Task) : Tree := .node task []

/-- The same tree with another task at the top. -/
def withTask (t : Tree) (task : Task) : Tree := .node task t.subtasks

mutual

/-- The number of tasks below the top, at every depth. -/
def count : Tree → Nat
  | .node _ subtasks => countAll subtasks

/-- The number of tasks in some trees. -/
def countAll : List Tree → Nat
  | [] => 0
  | t :: ts => 1 + t.count + countAll ts

end

mutual

/-- All tasks of a tree, each before the tasks below it. -/
def flatten : Tree → List Task
  | .node task subtasks => task :: flattenAll subtasks

/-- All tasks of some trees, in the order of the trees. -/
def flattenAll : List Tree → List Task
  | [] => []
  | t :: ts => t.flatten ++ flattenAll ts

end

/-- The tasks of a list that name this parent, in ascending order. -/
def childrenIn (pool : List Task) (parent : Uuid) : List Task :=
  sortOn (·.order) (pool.filter (·.parent = some parent))

/-- Hangs the tasks of a pool below a root, to a given depth. -/
def assemble.go (pool : List Task) : Nat → Task → Tree
  | 0, root => .leaf root
  | depth + 1, root => .node root ((childrenIn pool root.id).map (assemble.go pool depth))

/-- Hangs the tasks of a pool below a root; no branch is longer than the pool. -/
def assemble (root : Task) (pool : List Task) : Tree :=
  assemble.go pool pool.length root

end Tree

/-! ### Outlines -/

namespace Outline

/-- One task as a line: a mark if it is completed, its place, its name and its identifier.  Each
level below the first is indented by two blanks. -/
def line (depth : Int) (t : Task) : Text :=
  let mark := if t.isCompleted then "x" else " "
  String.ofList (List.replicate (2 * depth.toNat) ' ') ++
    s!"[{mark}] {t.order}. " ++ t.name ++ s!" ({t.id.text})"

mutual

/-- The lines of a tree whose top stands at some depth. -/
def treeLines (depth : Int) : Tree → List Text
  | .node task subtasks => line depth task :: lines (depth + 1) subtasks

/-- The lines of some trees whose tops stand at some depth. -/
def lines (depth : Int) : List Tree → List Text
  | [] => []
  | t :: ts => treeLines depth t ++ lines depth ts

end

end Outline

end Agenda
