import Agenda.Lock.Registry
import Mathlib.Data.List.Nodup
import Mathlib.Data.List.Perm.Subperm
import Mathlib.Logic.Function.Basic

/-!
# The queues that a registry stands for

A registry keeps locks by number, numbers by project, counts of users and tickets.  What it stands
for is simpler: for each project the list of its users in the order of their arrival, the first of
whom is inside.  `Registry.Shows r q` says that `r` stands for the lists `q`: a project in use has a
lock of its own with the first user as holder and the others waiting, the count is the length of
the list, every user has a ticket for the lock that is registered, and a project that is not in use
has left nothing behind.

Arriving puts a user at the end of a list (`Shows.arrive`), leaving takes a user out of it, and if
that was the first one, the next is inside (`Shows.leave`).
-/

namespace Agenda.Lock.Registry

variable {ω : Type}

/-! ### Tables -/

theorem lookup_map_count (table : List (Uuid × Nat)) (p p' : Uuid) (n : Nat) :
    (table.map fun (q, m) => if q = p then (q, n) else (q, m)).lookup p' =
      if p' = p then (table.lookup p).map fun _ => n else table.lookup p' := by
  induction table with
  | nil => simp
  | cons entry table ih =>
    obtain ⟨q, m⟩ := entry
    rw [List.map_cons]
    by_cases hq : q = p <;> by_cases hp : p' = q
    · subst hq hp
      simp
    · subst hq
      simp only [if_true, List.lookup_cons, beq_eq_false_iff_ne.2 hp, ih, hp, if_false]
    · subst hp
      simp [hq]
    · simp only [hq, if_false, List.lookup_cons, beq_eq_false_iff_ne.2 hp, ih,
        beq_eq_false_iff_ne.2 (Ne.symm hq)]

/-- A count is set for one project. -/
theorem lookup_setCount (table : List (Uuid × Nat)) (p p' : Uuid) (n : Nat) :
    (setCount table p n).lookup p' = if p' = p then some n else table.lookup p' := by
  unfold setCount
  split
  · rename_i hsome
    rw [lookup_map_count]
    obtain ⟨m, hm⟩ := Option.isSome_iff_exists.1 hsome
    rw [hm, Option.map_some]
  · rename_i hnone
    rw [Option.not_isSome_iff_eq_none] at hnone
    rw [List.lookup_append, List.lookup_cons, List.lookup_nil]
    by_cases hp : p' = p
    · subst hp
      simp [hnone]
    · simp [hp, beq_eq_false_iff_ne.2 hp]

/-- One key is taken out of a table, and no other. -/
theorem lookup_filter_ne {κ β : Type} [DecidableEq κ] (table : List (κ × β)) (k k' : κ) :
    (table.filter (·.1 != k)).lookup k' = if k' = k then none else table.lookup k' := by
  induction table with
  | nil => simp
  | cons entry table ih =>
    obtain ⟨q, m⟩ := entry
    rw [List.filter_cons]
    by_cases hq : q = k <;> by_cases hk : k' = q
    · subst hq hk
      simpa using ih
    · subst hq
      simp only [bne_self_eq_false, Bool.false_eq_true, if_false, ih, hk, List.lookup_cons,
        beq_eq_false_iff_ne.2 hk]
    · subst hk
      simp [hq]
    · simp only [bne_iff_ne, ne_eq, hq, not_false_iff, if_true, List.lookup_cons,
        beq_eq_false_iff_ne.2 hk, ih]

/-- A project is dropped, and no other. -/
theorem lookup_dropKey (table : List (Uuid × Nat)) (p p' : Uuid) :
    (dropKey table p).lookup p' = if p' = p then none else table.lookup p' :=
  lookup_filter_ne table p p'

/-! ### One user less -/

section Release

variable (r : Registry ω) (p p' : Uuid) {n : Nat}

@[simp] theorem release_made : (r.release p).made = r.made := by
  unfold release
  dsimp only
  split <;> rfl

@[simp] theorem release_tickets : (r.release p).tickets = r.tickets := by
  unfold release
  dsimp only
  split <;> rfl

/-- The lock of a project stays registered while it has users. -/
theorem release_registered (hn : (r.users.lookup p).getD 0 - 1 = n) :
    (r.release p).registered.lookup p' =
      if p' = p ∧ n = 0 then none else r.registered.lookup p' := by
  unfold release
  dsimp only
  rw [hn]
  split
  · rename_i hzero
    simp only [hzero, and_true]
    exact lookup_dropKey r.registered p p'
  · rename_i hpos
    rw [if_neg fun hdrop => hpos hdrop.2]

/-- The users of a project are one less. -/
theorem release_users (hn : (r.users.lookup p).getD 0 - 1 = n) :
    (r.release p).users.lookup p' =
      if p' = p then if n = 0 then none else some n else r.users.lookup p' := by
  unfold release
  dsimp only
  rw [hn]
  split
  · exact lookup_dropKey r.users p p'
  · exact lookup_setCount r.users p p' n

end Release

/-! ### The queues -/

variable [DecidableEq ω]

/-- What a registry keeps for one project is right for a list of users, in the order of their
arrival. -/
structure Keeps (r : Registry ω) (p : Uuid) (us : List ω) : Prop where
  /-- A project in use has a lock; its first user is inside and the others wait. -/
  lock : ∀ u vs, us = u :: vs →
    ∃ n, r.registered.lookup p = some n ∧ r.made[n]? = some ⟨some u, vs⟩
  /-- A project that nobody uses has no lock. -/
  unused : us = [] → r.registered.lookup p = none
  /-- The users are counted. -/
  count : r.users.lookup p = if us = [] then none else some us.length
  /-- Every user has a ticket for the lock that is registered. -/
  ticket : ∀ u ∈ us, ∃ n, r.ticket? u = some ⟨u, p, n⟩ ∧ r.registered.lookup p = some n
  /-- Nobody uses the project twice. -/
  nodup : us.Nodup

/-- A registry stands for the users of each project, in the order of their arrival. -/
structure Shows (r : Registry ω) (q : Uuid → List ω) : Prop where
  /-- What it keeps for each project is right. -/
  keeps : ∀ p, r.Keeps p (q p)
  /-- No two projects share a lock. -/
  apart : ∀ p p' n, r.registered.lookup p = some n → r.registered.lookup p' = some n → p = p'
  /-- Nobody but the users has a ticket. -/
  stranger : ∀ u, (∀ p, u ∉ q p) → r.ticket? u = none

/-- Nobody uses any project. -/
structure Idle (r : Registry ω) : Prop where
  registered : r.registered = []
  users : r.users = []
  tickets : r.tickets = []

/-- A registry that keeps the same for a project keeps it for the same users. -/
theorem Keeps.congr {r r' : Registry ω} {p : Uuid} {us : List ω} (h : r.Keeps p us)
    (hregistered : r'.registered.lookup p = r.registered.lookup p)
    (hmade : ∀ n, r.registered.lookup p = some n → r'.made[n]? = r.made[n]?)
    (husers : r'.users.lookup p = r.users.lookup p)
    (htickets : ∀ u ∈ us, r'.ticket? u = r.ticket? u) : r'.Keeps p us := by
  constructor
  case lock =>
    intro u vs hus
    obtain ⟨n, hn, hlock⟩ := h.lock u vs hus
    exact ⟨n, by rw [hregistered, hn], by rw [hmade n hn, hlock]⟩
  case unused =>
    intro hus
    rw [hregistered, h.unused hus]
  case count =>
    rw [husers, h.count]
  case ticket =>
    intro u hu
    obtain ⟨n, ht, hn⟩ := h.ticket u hu
    exact ⟨n, by rw [htickets u hu, ht], by rw [hregistered, hn]⟩
  case nodup =>
    exact h.nodup

/-- The lock of a project in use has been made: the first user holds it, the others wait. -/
theorem Keeps.exists_cons {r : Registry ω} {p : Uuid} {us : List ω} (h : r.Keeps p us) {n : Nat}
    (hn : r.registered.lookup p = some n) :
    ∃ u vs, us = u :: vs ∧ r.made[n]? = some ⟨some u, vs⟩ := by
  cases hus : us with
  | nil =>
    rw [h.unused hus] at hn
    cases hn
  | cons u vs =>
    obtain ⟨m, hm, hlock⟩ := h.lock u vs hus
    rw [hn] at hm
    obtain rfl := Option.some.inj hm
    exact ⟨u, vs, rfl, hlock⟩

/-- An idle registry stands for no users. -/
theorem Idle.shows {r : Registry ω} (h : r.Idle) : r.Shows fun _ => [] := by
  constructor
  case keeps =>
    intro p
    constructor
    case lock => exact fun _ _ hus => nomatch hus
    case unused => exact fun _ => by rw [h.registered, List.lookup_nil]
    case count => rw [h.users, List.lookup_nil, if_pos rfl]
    case ticket => exact fun _ hu => absurd hu List.not_mem_nil
    case nodup => exact List.nodup_nil
  case apart =>
    intro p p' n hn
    rw [h.registered] at hn
    cases hn
  case stranger =>
    intro u _
    rw [ticket?, h.tickets, List.find?_nil]

namespace Shows

variable {r : Registry ω} {q : Uuid → List ω} {u : ω} {p : Uuid}

/-- Whoever has a ticket is a user. -/
theorem isSome_ticket? (h : r.Shows q) (u : ω) : (r.ticket? u).isSome ↔ ∃ p, u ∈ q p := by
  constructor
  · intro hsome
    by_contra hno
    rw [h.stranger u fun p hp => hno ⟨p, hp⟩] at hsome
    cases hsome
  · rintro ⟨p, hp⟩
    obtain ⟨n, ht, -⟩ := (h.keeps p).ticket u hp
    rw [ht]
    rfl

/-- The first user of a project is inside, and no other. -/
theorem isInside_iff (h : r.Shows q) (hu : u ∈ q p) :
    r.isInside u = true ↔ (q p).head? = some u := by
  obtain ⟨n, ht, hn⟩ := (h.keeps p).ticket u hu
  obtain ⟨v, vs, hq, hlock⟩ := (h.keeps p).exists_cons hn
  have hlockAt : r.lockAt n = ⟨some v, vs⟩ := by
    rw [lockAt, List.getD_eq_getElem?_getD, hlock, Option.getD_some]
  rw [isInside, ht]
  dsimp only
  rw [hlockAt, hq, List.head?_cons, decide_eq_true_eq]

/-- Nobody but users is inside. -/
theorem isInside_of_stranger (h : r.Shows q) (hu : ∀ p, u ∉ q p) : r.isInside u = false := by
  rw [isInside, h.stranger u hu]

/-- A project is locked while it has users. -/
theorem isLocked_iff (h : r.Shows q) (p : Uuid) : r.isLocked p = true ↔ q p ≠ [] := by
  cases hq : q p with
  | nil =>
    rw [isLocked, (h.keeps p).unused hq]
    exact iff_of_false Bool.false_ne_true fun hne => hne rfl
  | cons u us =>
    obtain ⟨n, hn, hlock⟩ := (h.keeps p).lock u us hq
    rw [isLocked, hn]
    dsimp only
    rw [lockAt, List.getD_eq_getElem?_getD, hlock]
    exact iff_of_true rfl (List.cons_ne_nil u us)

/-- The users of a project are no more than the tickets. -/
theorem length_le (h : r.Shows q) (p : Uuid) : (q p).length ≤ r.tickets.length := by
  have hsub : q p ⊆ r.tickets.map (·.user) := by
    intro u hu
    obtain ⟨n, ht, -⟩ := (h.keeps p).ticket u hu
    exact List.mem_map.2 ⟨_, List.mem_of_find?_eq_some ht, rfl⟩
  have hlen := (List.subperm_of_subset (h.keeps p).nodup hsub).length_le
  rwa [List.length_map] at hlen

/-- A registry that stands for no users has no lock registered. -/
theorem size_eq_zero (h : r.Shows q) (hq : ∀ p, q p = []) : r.size = 0 := by
  rw [size, List.length_eq_zero_iff]
  cases hr : r.registered with
  | nil => rfl
  | cons entry rest =>
    have hnone := (h.keeps entry.1).unused (hq entry.1)
    rw [hr, List.lookup_cons_self] at hnone
    cases hnone

/-- A lock that is registered has been made. -/
theorem lt_length (h : r.Shows q) {n : Nat} (hn : r.registered.lookup p = some n) :
    n < r.made.length := by
  obtain ⟨v, vs, -, hlock⟩ := (h.keeps p).exists_cons hn
  exact (List.getElem?_eq_some_iff.1 hlock).1

/-- Nobody uses two projects. -/
theorem project_unique (h : r.Shows q) {p' : Uuid} (hp : u ∈ q p) (hp' : u ∈ q p') : p = p' := by
  obtain ⟨n, ht, -⟩ := (h.keeps p).ticket u hp
  obtain ⟨n', ht', -⟩ := (h.keeps p').ticket u hp'
  rw [ht] at ht'
  exact congrArg Ticket.project (Option.some.inj ht')

/-- **One project at a time.**  A registry that keeps other users for one project, with a lock that
no other project has, and is left alone for the rest, stands for the other users. -/
theorem update (h : r.Shows q) {r' : Registry ω} {us : List ω} (hp : r'.Keeps p us)
    (hfresh : ∀ n p', r'.registered.lookup p = some n → p' ≠ p → r.registered.lookup p' ≠ some n)
    (hregistered : ∀ p', p' ≠ p → r'.registered.lookup p' = r.registered.lookup p')
    (hmade : ∀ p' n, p' ≠ p → r.registered.lookup p' = some n → r'.made[n]? = r.made[n]?)
    (husers : ∀ p', p' ≠ p → r'.users.lookup p' = r.users.lookup p')
    (htickets : ∀ p', p' ≠ p → ∀ v ∈ q p', r'.ticket? v = r.ticket? v)
    (hstranger : ∀ v, v ∉ us → (∀ p', p' ≠ p → v ∉ q p') → r'.ticket? v = none) :
    r'.Shows (Function.update q p us) := by
  constructor
  case keeps =>
    intro p'
    by_cases hp' : p' = p
    · subst hp'
      rwa [Function.update_self]
    · rw [Function.update_of_ne hp']
      exact (h.keeps p').congr (hregistered p' hp') (fun n => hmade p' n hp') (husers p' hp')
        (htickets p' hp')
  case apart =>
    intro p₁ p₂ n h₁ h₂
    by_cases hp₁ : p₁ = p <;> by_cases hp₂ : p₂ = p
    · rw [hp₁, hp₂]
    · -- a lock of `p` that another project had before
      rw [hp₁] at h₁
      rw [hregistered p₂ hp₂] at h₂
      exact absurd h₂ (hfresh n p₂ h₁ hp₂)
    · rw [hp₂] at h₂
      rw [hregistered p₁ hp₁] at h₁
      exact absurd h₁ (hfresh n p₁ h₂ hp₁)
    · rw [hregistered p₁ hp₁] at h₁
      rw [hregistered p₂ hp₂] at h₂
      exact h.apart p₁ p₂ n h₁ h₂
  case stranger =>
    intro v hv
    apply hstranger
    · have hself := hv p
      rwa [Function.update_self] at hself
    · intro p' hp'
      have hother := hv p'
      rwa [Function.update_of_ne hp'] at hother

/-! ### Arriving -/

theorem ticket?_append (r : Registry ω) (t : Ticket ω) (v : ω) :
    (r.tickets ++ [t]).find? (·.user = v) =
      (r.ticket? v).or (if t.user = v then some t else none) := by
  rw [List.find?_append, ticket?]
  by_cases hv : t.user = v <;> simp [hv]

/-- The tickets after an arrival: those of the users of the project, and one more. -/
theorem ticket?_arrived (h : r.Shows q) (hu : ∀ p, u ∉ q p) {n : Nat} {v : ω}
    (hn : ∀ v ∈ q p, r.registered.lookup p = some n) (hv : v ∈ q p ++ [u]) :
    (r.ticket? v).or (if u = v then some ⟨u, p, n⟩ else none) = some ⟨v, p, n⟩ := by
  rcases List.mem_append.1 hv with hv | hv
  · obtain ⟨m, ht, hm⟩ := (h.keeps p).ticket v hv
    rw [hn v hv] at hm
    obtain rfl := Option.some.inj hm
    rw [ht, Option.some_or]
  · obtain rfl := List.mem_singleton.1 hv
    rw [h.stranger v hu, if_pos rfl, Option.none_or]

/-- One more user of a project, with a lock that is registered for it alone. -/
theorem arrived (h : r.Shows q) (hu : ∀ p, u ∉ q p) {r' : Registry ω} (n : Nat) (v : ω)
    (vs : List ω) (hq : q p ++ [u] = v :: vs) (hold : ∀ v ∈ q p, r.registered.lookup p = some n)
    (hfresh : ∀ p', p' ≠ p → r.registered.lookup p' ≠ some n)
    (hregistered : ∀ p', r'.registered.lookup p' =
      if p' = p then some n else r.registered.lookup p')
    (hlock : r'.made[n]? = some ⟨some v, vs⟩)
    (hmade : ∀ m, m ≠ n → m < r.made.length → r'.made[m]? = r.made[m]?)
    (husers : r'.users = setCount r.users p (q p ++ [u]).length)
    (htickets : r'.tickets = r.tickets ++ [⟨u, p, n⟩]) :
    r'.Shows (Function.update q p (q p ++ [u])) := by
  have hticket (v : ω) : r'.ticket? v =
      (r.ticket? v).or (if u = v then some ⟨u, p, n⟩ else none) := by
    rw [ticket?, htickets, ticket?_append]
  have hn : r'.registered.lookup p = some n := by rw [hregistered, if_pos rfl]
  have hkeeps : r'.Keeps p (q p ++ [u]) := by
    constructor
    case lock =>
      intro w ws hw
      rw [hq] at hw
      cases hw
      exact ⟨n, hn, hlock⟩
    case unused =>
      intro hnil
      rw [hq] at hnil
      cases hnil
    case count =>
      rw [husers, lookup_setCount, if_pos rfl, hq, if_neg (List.cons_ne_nil v vs)]
    case ticket =>
      intro w hw
      exact ⟨n, by rw [hticket, h.ticket?_arrived hu hold hw], hn⟩
    case nodup =>
      refine List.nodup_append.2 ⟨(h.keeps p).nodup, List.nodup_singleton u, ?_⟩
      rintro a ha b hb rfl
      exact hu p (List.mem_singleton.1 hb ▸ ha)
  refine h.update hkeeps ?fresh ?registered ?made ?users ?tickets ?stranger
  case fresh =>
    intro m p' hm hp'
    rw [hn] at hm
    obtain rfl := Option.some.inj hm
    exact hfresh p' hp'
  case registered =>
    intro p' hp'
    rw [hregistered, if_neg hp']
  case made =>
    intro p' m hp' hm
    exact hmade m (fun he => hfresh p' hp' (he ▸ hm)) (h.lt_length hm)
  case users =>
    intro p' hp'
    rw [husers, lookup_setCount, if_neg hp']
  case tickets =>
    intro p' _ w hw
    obtain ⟨m, ht, -⟩ := (h.keeps p').ticket w hw
    rw [hticket, ht, Option.some_or]
  case stranger =>
    -- whoever is neither the new user nor an old one had no ticket before
    intro w hw hothers
    rw [List.mem_append, List.mem_singleton, not_or] at hw
    have hnone : r.ticket? w = none := by
      apply h.stranger w
      intro p'
      by_cases hp' : p' = p
      · exact hp' ▸ hw.1
      · exact hothers p' hp'
    rw [hticket, hnone, if_neg (Ne.symm hw.2), Option.none_or]

/-- **Arriving.**  Whoever arrives is the last user of the project, and is inside if there is no
other. -/
theorem arrive (h : r.Shows q) (hu : ∀ p, u ∉ q p) (p : Uuid) :
    (r.arrive u p).1.Shows (Function.update q p (q p ++ [u])) ∧
      (r.arrive u p).2 = (q p).isEmpty := by
  have hcount := (h.keeps p).count
  by_cases hq : q p = []
  · -- a new lock, which the user holds at once
    have hnone := (h.keeps p).unused hq
    rw [if_pos hq] at hcount
    have harrive : r.arrive u p =
        ({ made := r.made ++ [⟨some u, []⟩]
           registered := r.registered ++ [(p, r.made.length)]
           users := setCount r.users p 1
           tickets := r.tickets ++ [⟨u, p, r.made.length⟩] }, true) := by
      simp [Registry.arrive, lockFor, hnone, hcount, lockAt, Mutex.join]
    rw [harrive]
    refine ⟨h.arrived hu r.made.length u [] ?all ?old ?fresh ?registered ?lock ?made ?count rfl,
      ?entered⟩
    case all => rw [hq, List.nil_append]
    case old =>
      rw [hq]
      exact fun _ hv => absurd hv List.not_mem_nil
    case fresh => exact fun p' _ hn => Nat.lt_irrefl _ (h.lt_length hn)
    case registered =>
      intro p'
      show (r.registered ++ [(p, r.made.length)]).lookup p' = _
      rw [List.lookup_append, List.lookup_cons, List.lookup_nil]
      by_cases hp' : p' = p
      · subst hp'
        simp [hnone]
      · simp [hp', beq_eq_false_iff_ne.2 hp']
    case lock =>
      show (r.made ++ [_])[r.made.length]? = _
      rw [List.getElem?_append_right (Nat.le_refl _), Nat.sub_self, List.getElem?_cons_zero]
    case made => exact fun m _ hm => List.getElem?_append_left hm
    case count =>
      rw [hq]
      rfl
    case entered =>
      rw [hq]
      rfl
  · -- the lock that is registered, with one more in its queue
    obtain ⟨v, vs, hq⟩ := List.exists_cons_of_ne_nil hq
    obtain ⟨n, hn, hlock⟩ := (h.keeps p).lock v vs hq
    rw [hq, if_neg (List.cons_ne_nil v vs), List.length_cons] at hcount
    have harrive : r.arrive u p =
        ({ r with
            made := r.made.set n ⟨some v, vs ++ [u]⟩
            users := setCount r.users p (vs.length + 1 + 1)
            tickets := r.tickets ++ [⟨u, p, n⟩] }, false) := by
      simp [Registry.arrive, lockFor, hn, hcount, lockAt, hlock, Mutex.join]
    rw [harrive]
    refine ⟨h.arrived hu n v (vs ++ [u]) ?all ?old ?fresh ?registered ?lock ?made ?count rfl,
      ?entered⟩
    case all => rw [hq, List.cons_append]
    case old => exact fun _ _ => hn
    case fresh => exact fun p' hp' hn' => hp' (h.apart p' p n hn' hn)
    case registered =>
      intro p'
      by_cases hp' : p' = p
      · subst hp'
        rw [if_pos rfl]
        exact hn
      · rw [if_neg hp']
    case lock => exact List.getElem?_set_self (h.lt_length hn)
    case made => exact fun m hm _ => List.getElem?_set_ne (Ne.symm hm)
    case count =>
      rw [hq, List.length_append]
      rfl
    case entered =>
      rw [hq]
      rfl

/-! ### Leaving -/

theorem ticket?_filter (r : Registry ω) (u v : ω) :
    (r.tickets.filter (·.user != u)).find? (·.user = v) = if v = u then none else r.ticket? v := by
  rw [List.find?_filter]
  by_cases hv : v = u
  · subst hv
    rw [if_pos rfl, List.find?_eq_none]
    intro t _ ht
    simp at ht
  · rw [if_neg hv, ticket?]
    congr 1
    funext t
    by_cases ht : t.user = v
    · simp [ht, hv]
    · simp [ht]

/-- A lock that a user leaves has the next user as holder, if it was the holder who left. -/
theorem part_eq (v : ω) (vs : List ω) (u : ω) :
    Mutex.part ⟨some v, vs⟩ u =
      (match (v :: vs).erase u with
        | [] => ⟨none, []⟩
        | w :: ws => ⟨some w, ws⟩,
      if v = u then vs.head? else none) := by
  by_cases hv : v = u
  · subst hv
    rw [List.erase_cons_head, if_pos rfl]
    cases vs with
    | nil => simp [Mutex.part]
    | cons w ws => simp [Mutex.part]
  · rw [List.erase_cons_tail (by simpa using hv), if_neg hv]
    simp [Mutex.part, hv]

/-- One user of a project less: the lock stays registered unless it was the last one. -/
theorem departed (h : r.Shows q) (hu : u ∈ q p) {r' : Registry ω} {n : Nat}
    (hn : r.registered.lookup p = some n)
    (hregistered : ∀ p', r'.registered.lookup p' =
      if p' = p ∧ ((q p).erase u).length = 0 then none else r.registered.lookup p')
    (hlock : ∀ w ws, (q p).erase u = w :: ws → r'.made[n]? = some ⟨some w, ws⟩)
    (hmade : ∀ m, m ≠ n → r'.made[m]? = r.made[m]?)
    (husers : ∀ p', r'.users.lookup p' =
      if p' = p then if ((q p).erase u).length = 0 then none else some ((q p).erase u).length
      else r.users.lookup p')
    (htickets : r'.tickets = r.tickets.filter (·.user != u)) :
    r'.Shows (Function.update q p ((q p).erase u)) := by
  simp only [List.length_eq_zero_iff] at hregistered husers
  have hticket (v : ω) : r'.ticket? v = if v = u then none else r.ticket? v := by
    rw [ticket?, htickets, ticket?_filter]
  have hstays : (q p).erase u ≠ [] → r'.registered.lookup p = some n := fun hne => by
    rw [hregistered, if_neg fun hdrop => hne hdrop.2, hn]
  have hkeeps : r'.Keeps p ((q p).erase u) := by
    constructor
    case lock =>
      intro w ws hw
      exact ⟨n, hstays (hw ▸ List.cons_ne_nil w ws), hlock w ws hw⟩
    case unused =>
      intro hnil
      rw [hregistered, if_pos ⟨rfl, hnil⟩]
    case count =>
      rw [husers, if_pos rfl]
    case ticket =>
      intro w hw
      have hne : w ≠ u := fun he => (h.keeps p).nodup.not_mem_erase (he ▸ hw)
      obtain ⟨m, ht, hm⟩ := (h.keeps p).ticket w (List.mem_of_mem_erase hw)
      rw [hn] at hm
      obtain rfl := Option.some.inj hm
      exact ⟨n, by rw [hticket, if_neg hne, ht], hstays (List.ne_nil_of_mem hw)⟩
    case nodup =>
      exact (h.keeps p).nodup.erase u
  refine h.update hkeeps ?fresh ?registered ?made ?users ?tickets ?stranger
  case fresh =>
    intro m p' hm hp' hm'
    rw [hregistered] at hm
    split at hm
    · cases hm
    · exact hp' (h.apart p' p m hm' hm)
  case registered =>
    intro p' hp'
    rw [hregistered, if_neg fun hdrop => hp' hdrop.1]
  case made =>
    intro p' m hp' hm
    exact hmade m fun he => hp' (h.apart p' p n (he ▸ hm) hn)
  case users =>
    intro p' hp'
    rw [husers, if_neg hp']
  case tickets =>
    -- nobody uses two projects, so the others are not the one who leaves
    intro p' hp' w hw
    rw [hticket, if_neg fun (he : w = u) => hp' (h.project_unique (he ▸ hw) hu)]
  case stranger =>
    intro w hw hothers
    rw [hticket]
    split
    · rfl
    · rename_i hne
      apply h.stranger w
      intro p' hw'
      by_cases hp' : p' = p
      · exact hw ((List.mem_erase_of_ne hne).2 (hp' ▸ hw'))
      · exact hothers p' hp' hw'

/-- **Leaving.**  Whoever leaves is gone from the users of its project, and the next one enters if
it was inside. -/
theorem leave (h : r.Shows q) (hu : u ∈ q p) :
    (r.leave u).1.Shows (Function.update q p ((q p).erase u)) ∧
      (r.leave u).2 = if (q p).head? = some u then ((q p).erase u).head? else none := by
  obtain ⟨n, ht, hn⟩ := (h.keeps p).ticket u hu
  obtain ⟨v, vs, hq, hlock⟩ := (h.keeps p).exists_cons hn
  have hlockAt : r.lockAt n = ⟨some v, vs⟩ := by
    rw [lockAt, List.getD_eq_getElem?_getD, hlock, Option.getD_some]
  have hcount : (r.users.lookup p).getD 0 - 1 = ((q p).erase u).length := by
    rw [(h.keeps p).count, if_neg (List.ne_nil_of_mem hu), Option.getD_some,
      List.length_erase_of_mem hu]
  have hpart := part_eq v vs u
  rw [← hq] at hpart
  have hnext : (if v = u then vs.head? else none) =
      if (q p).head? = some u then ((q p).erase u).head? else none := by
    rw [hq, List.head?_cons]
    by_cases hv : v = u
    · subst hv
      rw [if_pos rfl, if_pos rfl, List.erase_cons_head]
    · rw [if_neg hv, if_neg fun he => hv (Option.some.inj he)]
  -- the registry that has lost the ticket, before the count goes down
  obtain ⟨r', hr', hmade, hregistered, husers, htickets⟩ : ∃ r' : Registry ω,
      r.leave u = (r'.release p, (Mutex.part ⟨some v, vs⟩ u).2) ∧
      r'.made = r.made.set n (Mutex.part ⟨some v, vs⟩ u).1 ∧ r'.registered = r.registered ∧
      r'.users = r.users ∧ r'.tickets = r.tickets.filter (·.user != u) := by
    rw [Registry.leave, ht]
    dsimp only
    rw [hlockAt]
    exact ⟨_, rfl, rfl, rfl, rfl, rfl⟩
  rw [← husers] at hcount
  rw [hr', hpart]
  rw [hpart] at hmade
  refine ⟨h.departed hu hn ?registered ?lock ?made ?users ?tickets, hnext⟩
  case registered =>
    intro p'
    rw [release_registered r' p p' hcount, hregistered]
  case lock =>
    intro w ws hw
    rw [release_made, hmade, hw]
    exact List.getElem?_set_self (h.lt_length hn)
  case made =>
    intro m hm
    rw [release_made, hmade, List.getElem?_set_ne (Ne.symm hm)]
  case users =>
    intro p'
    rw [release_users r' p p' hcount, husers]
  case tickets =>
    rw [release_tickets, htickets]

/-- The first user leaves, and the second one enters. -/
theorem leave_first {us : List ω} (h : r.Shows (Function.update q p (u :: us))) :
    (r.leave u).1.Shows (Function.update q p us) ∧ (r.leave u).2 = us.head? := by
  have hself : Function.update q p (u :: us) p = u :: us := Function.update_self ..
  obtain ⟨hshows, hnext⟩ := h.leave (u := u) (p := p) (by rw [hself]; exact List.mem_cons_self)
  rw [hself, List.erase_cons_head] at hshows hnext
  rw [Function.update_idem] at hshows
  exact ⟨hshows, by rw [hnext, List.head?_cons, if_pos rfl]⟩

end Shows

end Agenda.Lock.Registry
