/-!
# Stable sorting

Lists are put in the order of a whole-number key by insertion; elements with equal keys keep
their places relative to each other.  `perm_sortOn`, `pairwise_sortOn` and `filter_key_sortOn` say
that the result holds the same elements, in ascending order, and with ties as they were.  Sorting
an ascending list does nothing, and sorting goes along with `map` and `filter`.
-/

namespace Agenda

variable {α : Type}

/-- Puts an element in front of the first one whose key is not smaller. -/
def insertOn (key : α → Int) (x : α) : List α → List α
  | [] => [x]
  | y :: ys => if key x ≤ key y then x :: y :: ys else y :: insertOn key x ys

/-- The elements in ascending order of a key, ties as they were. -/
def sortOn (key : α → Int) (xs : List α) : List α :=
  xs.foldr (insertOn key) []

@[simp] theorem sortOn_nil (key : α → Int) : sortOn key ([] : List α) = [] := rfl

@[simp] theorem sortOn_cons (key : α → Int) (x : α) (xs : List α) :
    sortOn key (x :: xs) = insertOn key x (sortOn key xs) := rfl

/-- Insertion adds the element. -/
theorem perm_insertOn (key : α → Int) (x : α) (xs : List α) :
    (insertOn key x xs).Perm (x :: xs) := by
  induction xs with
  | nil => exact .refl _
  | cons y ys ih =>
    unfold insertOn
    split
    · exact .refl _
    · exact (ih.cons y).trans (.swap x y ys)

/-- Sorting keeps the elements. -/
theorem perm_sortOn (key : α → Int) (xs : List α) : (sortOn key xs).Perm xs := by
  induction xs with
  | nil => exact .refl _
  | cons x xs ih => exact (perm_insertOn key x _).trans (ih.cons x)

/-- Insertion keeps ascending order. -/
theorem pairwise_insertOn (key : α → Int) (x : α) {xs : List α}
    (h : xs.Pairwise fun a b => key a ≤ key b) :
    (insertOn key x xs).Pairwise fun a b => key a ≤ key b := by
  induction xs with
  | nil => simp [insertOn]
  | cons y ys ih =>
    obtain ⟨hy, hys⟩ := List.pairwise_cons.1 h
    unfold insertOn
    split
    · rename_i hxy
      refine List.pairwise_cons.2 ⟨fun z hz => ?_, h⟩
      rcases List.mem_cons.1 hz with rfl | hz
      · exact hxy
      · exact Int.le_trans hxy (hy z hz)
    · rename_i hxy
      refine List.pairwise_cons.2 ⟨fun z hz => ?_, ih hys⟩
      rcases List.mem_cons.1 ((perm_insertOn key x ys).mem_iff.1 hz) with rfl | hz
      · omega
      · exact hy z hz

/-- A sorted list ascends. -/
theorem pairwise_sortOn (key : α → Int) (xs : List α) :
    (sortOn key xs).Pairwise fun a b => key a ≤ key b := by
  induction xs with
  | nil => exact .nil
  | cons x xs ih => exact pairwise_insertOn key x ih

/-- Among the elements of one key, insertion puts the new one first. -/
theorem filter_key_insertOn (key : α → Int) (k : Int) (x : α) (xs : List α) :
    (insertOn key x xs).filter (key · = k) = (x :: xs).filter (key · = k) := by
  induction xs with
  | nil => rfl
  | cons y ys ih =>
    unfold insertOn
    split
    · rfl
    · rename_i hxy
      simp only [List.filter_cons] at ih ⊢
      rw [ih]
      by_cases hx : key x = k <;> by_cases hy : key y = k <;> simp [hx, hy]
      omega

/-- The elements of one key stand in the order in which they came. -/
theorem filter_key_sortOn (key : α → Int) (k : Int) (xs : List α) :
    (sortOn key xs).filter (key · = k) = xs.filter (key · = k) := by
  induction xs with
  | nil => rfl
  | cons x xs ih =>
    rw [sortOn_cons, filter_key_insertOn]
    simp only [List.filter_cons, ih]

/-! ### Sorting and other operations on lists -/

@[simp] theorem mem_sortOn {key : α → Int} {x : α} {xs : List α} :
    x ∈ sortOn key xs ↔ x ∈ xs :=
  (perm_sortOn key xs).mem_iff

@[simp] theorem length_sortOn (key : α → Int) (xs : List α) :
    (sortOn key xs).length = xs.length :=
  (perm_sortOn key xs).length_eq

/-- An element whose key is not above that of any other goes to the front. -/
theorem insertOn_of_forall_le {key : α → Int} {x : α} {xs : List α}
    (h : ∀ y ∈ xs, key x ≤ key y) : insertOn key x xs = x :: xs := by
  cases xs with
  | nil => rfl
  | cons y ys => simp only [insertOn, h y List.mem_cons_self, if_true]

/-- An ascending list is left as it is. -/
theorem sortOn_of_pairwise {key : α → Int} {xs : List α}
    (h : xs.Pairwise fun a b => key a ≤ key b) : sortOn key xs = xs := by
  induction xs with
  | nil => rfl
  | cons x xs ih =>
    obtain ⟨hx, hxs⟩ := List.pairwise_cons.1 h
    rw [sortOn_cons, ih hxs, insertOn_of_forall_le hx]

/-- Sorting twice is sorting once. -/
@[simp] theorem sortOn_sortOn (key : α → Int) (xs : List α) :
    sortOn key (sortOn key xs) = sortOn key xs :=
  sortOn_of_pairwise (pairwise_sortOn key xs)

theorem insertOn_map {β : Type} (key : β → Int) (f : α → β) (x : α) (xs : List α) :
    insertOn key (f x) (xs.map f) = (insertOn (fun a => key (f a)) x xs).map f := by
  induction xs with
  | nil => rfl
  | cons y ys ih =>
    simp only [List.map_cons, insertOn]
    split
    · rfl
    · rw [ih, List.map_cons]

/-- Sorting images is sorting by the keys of the images. -/
theorem sortOn_map {β : Type} (key : β → Int) (f : α → β) (xs : List α) :
    sortOn key (xs.map f) = (sortOn (fun a => key (f a)) xs).map f := by
  induction xs with
  | nil => rfl
  | cons x xs ih => rw [List.map_cons, sortOn_cons, sortOn_cons, ih, insertOn_map]

/-- In an ascending list, insertion and a choice of elements can change places. -/
theorem filter_insertOn (key : α → Int) (p : α → Bool) (x : α) {xs : List α}
    (h : xs.Pairwise fun a b => key a ≤ key b) :
    (insertOn key x xs).filter p =
      if p x then insertOn key x (xs.filter p) else xs.filter p := by
  induction xs with
  | nil => simp [insertOn, List.filter_cons]
  | cons y ys ih =>
    obtain ⟨hy, hys⟩ := List.pairwise_cons.1 h
    by_cases hxy : key x ≤ key y
    · have hle : ∀ z ∈ (y :: ys).filter p, key x ≤ key z := by
        intro z hz
        rcases List.mem_cons.1 (List.mem_filter.1 hz).1 with rfl | hz
        · exact hxy
        · exact Int.le_trans hxy (hy z hz)
      rw [insertOn_of_forall_le hle]
      simp only [insertOn, hxy, if_true]
      rw [List.filter_cons]
    · simp only [insertOn, hxy, if_false, List.filter_cons, ih hys]
      by_cases hpx : p x <;> by_cases hpy : p y <;> simp [hpx, hpy, insertOn, hxy]

/-- Sorting a choice of elements is choosing from the sorted list. -/
theorem sortOn_filter (key : α → Int) (p : α → Bool) (xs : List α) :
    sortOn key (xs.filter p) = (sortOn key xs).filter p := by
  induction xs with
  | nil => rfl
  | cons x xs ih =>
    rw [sortOn_cons, filter_insertOn key p x (pairwise_sortOn key xs), List.filter_cons, ← ih]
    split <;> rfl

end Agenda
