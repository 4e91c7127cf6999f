import Agenda.Proofs.Identifier
import Agenda.Task.Tree
import Mathlib.Data.List.Forall2
import Std.Data.String.ToInt

/-!
# Outlines can be read back

An outline shows four things of a task: whether it is completed, its order, its name and its
identifier.  A name may hold anything, also what stands between these four, and even the text of
another line.

**The trees are told apart by their outlines** (`Outline.lines_eq_iff`).  At every depth, two
forests are written as the same lines just when they have the same shape and show the same of each
task; and there are as many lines as tasks.

A line is read from both ends (`Outline.line_inj`): in front, the first bracket ends the
indentation, and the first full stop behind it ends the order, which is a numeral; at the back, the
identifier takes up 36 characters and a parenthesis; what is left in between is the name.  The
shape is in the indentation.  What is below a task ends where a line is not indented further than
the task (`Outline.Ends`), so the lines of one forest are told from whatever follows them
(`Outline.resembles_of_lines_append`).
-/

namespace Agenda

/-- Two tasks of which an outline shows the same. -/
structure Task.LooksLike (s t : Task) : Prop where
  id : s.id = t.id
  name : s.name = t.name
  order : s.order = t.order
  completed : s.isCompleted = t.isCompleted

/-- Two trees of the same shape, with tasks that look alike at the same places. -/
inductive Tree.Resembles : Tree → Tree → Prop
  | node {s t : Task} {ss ts : List Tree} :
    s.LooksLike t → List.Forall₂ Tree.Resembles ss ts → Tree.Resembles (.node s ss) (.node t ts)

namespace Text

/-- A code point divides a text at its first place in one way only. -/
theorem eq_of_append_cons_eq {c : Point} {xs ys us vs : List Point} (hxs : c ∉ xs) (hys : c ∉ ys)
    (h : xs ++ c :: us = ys ++ c :: vs) : xs = ys ∧ us = vs := by
  induction xs generalizing ys with
  | nil =>
    cases ys with
    | nil => exact ⟨rfl, (List.cons.inj h).2⟩
    | cons y ys => exact absurd (List.cons.inj h).1 (List.ne_of_not_mem_cons hys)
  | cons x xs ih =>
    cases ys with
    | nil => exact absurd (List.cons.inj h).1.symm (List.ne_of_not_mem_cons hxs)
    | cons y ys =>
      obtain ⟨rfl, htail⟩ := List.cons.inj h
      obtain ⟨rfl, rfl⟩ := ih (List.not_mem_of_not_mem_cons hxs) (List.not_mem_of_not_mem_cons hys)
        htail
      exact ⟨rfl, rfl⟩

/-- The numeral of a whole number has no full stop. -/
theorem stop_notMem_repr (n : Int) : '.' ∉ n.repr.toList := by
  have hnat (m : Nat) : '.' ∉ m.repr.toList := by
    intro h
    rw [Nat.toList_repr] at h
    have hdigit := Nat.isDigit_of_mem_toDigits (by decide) (by decide) h
    exact absurd hdigit (by decide)
  cases n with
  | ofNat m => exact hnat m
  | negSucc m =>
    show '.' ∉ ("-" ++ (m + 1).repr).toList
    rw [String.toList_append, List.mem_append, not_or]
    exact ⟨by decide, hnat (m + 1)⟩

theorem charPoint_injective : Function.Injective Point.char := by
  intro c d h
  exact Point.char.inj h

end Text

theorem Uuid.length_chars (u : Uuid) : u.chars.length = 36 := by
  simp [chars]

namespace Outline

variable {depth d e : Nat} {s t : Task} {rest rest' : List Text}

/-! ### One line -/

/-- A line, point by point. -/
theorem points_line (depth : Nat) (t : Task) :
    (line depth t).points =
      List.replicate (2 * depth) (.char ' ') ++ .char '[' ::
        .char (if t.isCompleted then 'x' else ' ') :: .char ']' :: .char ' ' ::
          (t.order.repr.toList.map .char ++ .char '.' :: .char ' ' ::
            (t.name.points ++ .char ' ' :: .char '(' ::
              (t.id.chars.map .char ++ [.char ')']))) := by
  unfold line
  cases t.isCompleted <;>
    simp [Uuid.text, toString]

/-- **Lines.**  A line shows its depth, and four things of its task. -/
theorem line_inj : line d s = line e t ↔ d = e ∧ s.LooksLike t := by
  constructor
  · intro h
    have hpoints := congrArg Text.points h
    rw [points_line, points_line] at hpoints
    have hindent (n : Nat) :
        Text.Point.char '[' ∉ List.replicate (2 * n) (Text.Point.char ' ') := by
      intro hmem
      exact absurd (List.eq_of_mem_replicate hmem) (by decide)
    have hnumeral (t : Task) : Text.Point.char '.' ∉ t.order.repr.toList.map .char := by
      rw [List.mem_map_of_injective Text.charPoint_injective]
      exact Text.stop_notMem_repr t.order
    obtain ⟨hdepth, hshown⟩ := Text.eq_of_append_cons_eq (hindent d) (hindent e) hpoints
    obtain ⟨hmark, hshown⟩ := List.cons.inj hshown
    have hshown := (List.cons.inj (List.cons.inj hshown).2).2
    obtain ⟨horder, hshown⟩ := Text.eq_of_append_cons_eq (hnumeral s) (hnumeral t) hshown
    have hshown := (List.cons.inj hshown).2
    -- the end of the line is of one length, so the names end at the same place
    obtain ⟨hname, hid⟩ := List.append_inj' hshown (by simp [Uuid.length_chars])
    have hid := List.append_cancel_right (List.cons.inj (List.cons.inj hid).2).2
    refine ⟨?_, ?_, ?_, ?_, ?_⟩
    · have hlength := congrArg List.length hdepth
      rw [List.length_replicate, List.length_replicate] at hlength
      omega
    · exact Uuid.text_injective (congrArg String.ofList
        (Text.charPoint_injective.list_map hid))
    · exact Text.ext hname
    · exact Int.repr_injective (String.toList_injective
        (Text.charPoint_injective.list_map horder))
    · revert hmark
      cases s.isCompleted <;> cases t.isCompleted <;> decide
  · rintro ⟨rfl, h⟩
    unfold line
    rw [h.id, h.name, h.order, h.completed]

/-! ### Many lines -/

theorem lines_node_cons (depth : Nat) (t : Task) (ts xs : List Tree) :
    lines depth (.node t ts :: xs) =
      line depth t :: (lines (depth + 1 : Nat) ts ++ lines depth xs) := rfl

/-- There are as many lines as tasks. -/
theorem length_lines (depth : Int) (xs : List Tree) :
    (lines depth xs).length = (Tree.flattenAll xs).length := by
  induction xs using Tree.forestInduction generalizing depth with
  | nil => rfl
  | cons t ts xs ihts ihxs =>
    rw [lines, treeLines, Tree.flattenAll, Tree.flatten, List.length_append, List.length_append,
      List.length_cons, List.length_cons, ihts, ihxs]

/-- Lines before which a forest ends whose tops stand at some depth: there are none, or the first
is not the line of a task at this depth or below. -/
def Ends (depth : Nat) (rest : List Text) : Prop :=
  ∀ l ∈ rest.head?, ∀ d t, depth ≤ d → l ≠ line d t

theorem ends_nil (depth : Nat) : Ends depth [] := by
  intro l hl
  cases hl

theorem Ends.ne_cons (h : Ends depth rest) : rest ≠ line depth t :: rest' := by
  rintro rfl
  exact h _ rfl depth t (Nat.le_refl depth) rfl

/-- What is below a task ends before the tasks beside it, and where these end. -/
theorem Ends.below (h : Ends depth rest) (xs : List Tree) :
    Ends (depth + 1) (lines depth xs ++ rest) := by
  intro l hl d t hd
  cases xs with
  | nil => exact h l hl d t (by omega)
  | cons x xs =>
    obtain ⟨s, ss⟩ := x
    rw [lines_node_cons, List.cons_append, List.head?_cons, Option.mem_some_iff] at hl
    rintro rfl
    have hdepth := (line_inj.1 hl).1
    omega

/-- A forest is told from the lines behind it. -/
theorem resembles_of_lines_append {xs ys : List Tree} (hrest : Ends depth rest)
    (hrest' : Ends depth rest') (h : lines depth xs ++ rest = lines depth ys ++ rest') :
    List.Forall₂ Tree.Resembles xs ys ∧ rest = rest' := by
  induction xs using Tree.forestInduction generalizing depth ys rest rest' with
  | nil =>
    cases ys with
    | nil => exact ⟨.nil, h⟩
    | cons y ys =>
      obtain ⟨t, ts⟩ := y
      exact absurd h hrest.ne_cons
  | cons s ss xs ihss ihxs =>
    cases ys with
    | nil => exact absurd h.symm hrest'.ne_cons
    | cons y ys =>
      obtain ⟨t, ts⟩ := y
      rw [lines_node_cons, lines_node_cons, List.cons_append, List.cons_append, List.append_assoc,
        List.append_assoc] at h
      obtain ⟨hline, htail⟩ := List.cons.inj h
      obtain ⟨hbelow, hbeside⟩ := ihss (hrest.below xs) (hrest'.below ys) htail
      obtain ⟨hxs, hends⟩ := ihxs hrest hrest' hbeside
      exact ⟨.cons (.node (line_inj.1 hline).2 hbelow) hxs, hends⟩

/-- Nothing else of the tasks is written. -/
theorem lines_congr {xs ys : List Tree} (h : List.Forall₂ Tree.Resembles xs ys) :
    lines depth xs = lines depth ys := by
  induction xs using Tree.forestInduction generalizing depth ys with
  | nil =>
    cases h
    rfl
  | cons s ss xs ihss ihxs =>
    obtain _ | @⟨_, y, _, ys, htop, hbeside⟩ := h
    obtain ⟨hlooks, hbelow⟩ := htop
    rw [lines_node_cons, lines_node_cons, line_inj.2 ⟨rfl, hlooks⟩, ihss hbelow, ihxs hbeside]

/-- **Read back.**  Two forests are written as the same lines just when they have the same shape
and the same identifiers, names, orders and marks, task by task; and each task has its line. -/
theorem lines_eq_iff (depth : Nat) (xs ys : List Tree) :
    (lines depth xs = lines depth ys ↔ List.Forall₂ Tree.Resembles xs ys) ∧
      (lines depth xs).length = (Tree.flattenAll xs).length := by
  refine ⟨⟨fun h => ?_, lines_congr⟩, length_lines depth xs⟩
  have happend : lines depth xs ++ [] = lines depth ys ++ [] := by
    rw [List.append_nil, List.append_nil, h]
  exact (resembles_of_lines_append (ends_nil depth) (ends_nil depth) happend).1

end Outline

end Agenda
