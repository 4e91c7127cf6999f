import Agenda.Proofs.Lock.Turns
import Mathlib.Data.Set.Card

/-!
# The accounts of a registry

A registry keeps two tables, the lock of each project in use and the number of its users, and both
are changed when a worker arrives and when it is gone, whichever way it goes.  A journal says who
is there: `present p J` are the visits to the project `p` that are not over after the entries `J`,
and `Registry.told J` is the registry that these entries make out of the empty one.

`Registry.Exact r J` says that the accounts of `r` are right: the tables have the same keys, the
number kept for a project is the number of its visits, never zero, every visitor has a ticket for
the one lock that is registered, and nothing is kept for a project without visitors.

**Accounts are always exact** (`Workers.registry_exact`).  Whether a visitor is inside or waits
does not matter for them, nor in which order visitors enter, so they are exact for every journal in
which nobody arrives who is there already (`Consistent`).  The journals of workers are such
(`Workers.consistent_run`), and the registry of the workers is the one that their journal tells of.
The proof joins two invariants: the queues that the registry stands for (`Registry.Shows`) and
the keys of the two tables (`Registry.Paired`).
-/

namespace Agenda.Lock

variable {ω : Type} [DecidableEq ω]

/-! ### Who is present -/

/-- The visits to a project that are not over after the entries of a journal. -/
def present (p : Uuid) (J : List (Entry ω)) : List (Visit ω) := (visits p J).filter Visit.isOpen

/-- Those who visit a project after the entries of a journal, in the order of arrival. -/
def visitors (p : Uuid) (J : List (Entry ω)) : List ω := (present p J).map (·.worker)

/-- A journal in which nobody arrives who is there already. -/
inductive Consistent : List (Entry ω) → Prop
  | nil : Consistent []
  | arrival {J : List (Entry ω)} {u : ω} {p : Uuid} (h : Consistent J)
    (hu : ∀ p', u ∉ visitors p' J) : Consistent (J ++ [.arrival u p])
  | event {J : List (Entry ω)} {e : Event ω} (h : Consistent J) : Consistent (J ++ [.event e])

section Visitors

variable {p : Uuid} {J : List (Entry ω)} {u : ω}

theorem visits_append (p : Uuid) (J : List (Entry ω)) (e : Entry ω) :
    visits p (J ++ [e]) = visits.note p (visits p J) e :=
  List.foldl_concat ..

theorem visitors_eq_nil : visitors p J = [] ↔ present p J = [] := List.map_eq_nil_iff

/-- Whoever arrives at a project is its last visitor. -/
theorem visitors_arrival (J : List (Entry ω)) (u : ω) (p : Uuid) :
    (fun p' => visitors p' (J ++ [.arrival u p])) =
      Function.update (fun p' => visitors p' J) p (visitors p J ++ [u]) := by
  funext p'
  rw [visitors, present, visits_append, visits.note]
  by_cases hp : p = p'
  · subst hp
    have hopen : (Visit.waiting u).isOpen = true := rfl
    rw [if_pos rfl, Function.update_self, List.filter_append, List.map_append,
      List.filter_cons_of_pos hopen]
    rfl
  · rw [if_neg hp, Function.update_of_ne (Ne.symm hp)]
    rfl

omit [DecidableEq ω] in
theorem Visit.worker_hear [DecidableEq ω] (e : Event ω) (v : Visit ω) :
    (v.hear e).worker = v.worker := by
  unfold hear
  split
  · split <;> rfl
  · rfl

/-- Entering makes no difference to who is there. -/
theorem visitors_enter (p : Uuid) (J : List (Entry ω)) (u : ω) :
    visitors p (J ++ [.event (u, .enter)]) = visitors p J := by
  have hopen : Visit.isOpen ∘ Visit.hear (u, .enter) = Visit.isOpen := by
    funext v
    rw [Function.comp_apply, Visit.isOpen, Visit.ended_hear_enter, Visit.isOpen]
  rw [visitors, present, visits_append, visits.note, List.filter_map, hopen, List.map_map]
  exact List.map_congr_left fun v _ => Visit.worker_hear _ v

/-- Whoever exits, fails or is cancelled is gone, and nobody else is. -/
theorem visitors_gone (p : Uuid) (J : List (Entry ω)) (u : ω) {how : Happening}
    (hhow : how ≠ .enter) :
    visitors p (J ++ [.event (u, how)]) = (visitors p J).filter (· ≠ u) := by
  rw [visitors, present, visits_append, visits.note, visitors, present]
  induction visits p J with
  | nil => rfl
  | cons v vs ih =>
    cases hv : v.isOpen with
    | false =>
      have hover : ¬ v.isOpen = true := by rw [hv]; exact Bool.false_ne_true
      rw [List.map_cons, Visit.hear_of_over hv, List.filter_cons_of_neg hover,
        List.filter_cons_of_neg hover, ih]
    | true =>
      by_cases hvu : v.worker = u
      · -- this visit ends here
        have hopen : v.ended = none := Option.isNone_iff_eq_none.1 hv
        have hover : ¬ (v.hear (u, how)).isOpen = true := by
          simp [Visit.hear, Visit.isOpen, hvu, hhow, hopen]
        rw [List.map_cons, List.filter_cons_of_neg hover, ih, List.filter_cons_of_pos hv,
          List.map_cons, List.filter_cons_of_neg (by simpa using hvu)]
      · have hsame : v.hear (u, how) = v := Visit.hear_of_ne hvu
        rw [List.map_cons, hsame, List.filter_cons_of_pos hv, List.map_cons, ih,
          List.filter_cons_of_pos hv, List.map_cons, List.filter_cons_of_pos (by simpa using hvu)]

/-- The beginning of a consistent journal is consistent. -/
theorem Consistent.of_prefix {J' : List (Entry ω)} (h : Consistent J) (hJ : J' <+: J) :
    Consistent J' := by
  induction h with
  | nil =>
    rw [List.prefix_nil.1 hJ]
    exact .nil
  | arrival h hu ih =>
    rcases List.prefix_concat_iff.1 hJ with rfl | hJ
    · exact .arrival h hu
    · exact ih hJ
  | event h ih =>
    rcases List.prefix_concat_iff.1 hJ with rfl | hJ
    · exact .event h
    · exact ih hJ

/-- Whatever happens to those who are there, a journal stays consistent. -/
theorem Consistent.events (h : Consistent J) (events : List (Event ω)) :
    Consistent (J ++ events.map .event) := by
  induction events generalizing J with
  | nil =>
    rw [List.map_nil, List.append_nil]
    exact h
  | cons e events ih =>
    rw [List.map_cons, List.append_cons]
    exact ih h.event

end Visitors

namespace Registry

/-! ### The keys of the tables -/

/-- The tables of locks and of numbers have the same keys, each of them once. -/
def Paired (r : Registry ω) : Prop :=
  r.registered.map Prod.fst = r.users.map Prod.fst ∧ (r.registered.map Prod.fst).Nodup

theorem mem_keys_iff {table : List (Uuid × Nat)} {p : Uuid} :
    p ∈ table.map Prod.fst ↔ (table.lookup p).isSome := by
  induction table with
  | nil => simp
  | cons entry table ih =>
    obtain ⟨q, n⟩ := entry
    rw [List.map_cons, List.mem_cons, List.lookup_cons]
    by_cases hp : p = q
    · subst hp
      simp
    · simp only [hp, false_or, beq_eq_false_iff_ne.2 hp, ih]

/-- A number for a project that has one is no new key. -/
theorem keys_setCount_of_mem {table : List (Uuid × Nat)} {p : Uuid}
    (h : p ∈ table.map Prod.fst) (n : Nat) :
    (setCount table p n).map Prod.fst = table.map Prod.fst := by
  rw [setCount, if_pos (mem_keys_iff.1 h), List.map_map]
  refine List.map_congr_left fun ⟨q, m⟩ _ => ?_
  by_cases hq : q = p
  · subst hq
    simp
  · simp [hq]

/-- A number for a project that has none is a new key. -/
theorem keys_setCount_of_notMem {table : List (Uuid × Nat)} {p : Uuid}
    (h : p ∉ table.map Prod.fst) (n : Nat) :
    (setCount table p n).map Prod.fst = table.map Prod.fst ++ [p] := by
  rw [setCount, if_neg (fun hsome => h (mem_keys_iff.2 hsome)), List.map_append]
  rfl

theorem keys_dropKey (table : List (Uuid × Nat)) (p : Uuid) :
    (dropKey table p).map Prod.fst = (table.map Prod.fst).filter (· != p) := by
  rw [dropKey, List.filter_map]
  rfl

namespace Paired

variable {r : Registry ω} {p : Uuid}

omit [DecidableEq ω] in
/-- A project that gets a lock gets a number, and one that has a lock has a number already. -/
theorem arrive [DecidableEq ω] (h : r.Paired) (u : ω) (p : Uuid) : (r.arrive u p).1.Paired := by
  obtain ⟨hsame, hnodup⟩ := h
  cases hlock : r.registered.lookup p with
  | some n =>
    have hkey : p ∈ r.registered.map Prod.fst := mem_keys_iff.2 (by rw [hlock]; rfl)
    have hlockFor : r.lockFor p = (n, r) := by rw [lockFor, hlock]
    rw [Registry.arrive, hlockFor]
    refine ⟨?_, hnodup⟩
    rw [hsame] at hkey
    exact hsame.trans (keys_setCount_of_mem hkey _).symm
  | none =>
    have hkey : p ∉ r.registered.map Prod.fst := fun hmem => by
      have hsome := mem_keys_iff.1 hmem
      rw [hlock] at hsome
      cases hsome
    have hlockFor : r.lockFor p = (r.made.length,
        { r with
          made := r.made ++ [⟨none, []⟩]
          registered := r.registered ++ [(p, r.made.length)] }) := by
      rw [lockFor, hlock]
    have hkeys : (r.registered ++ [(p, r.made.length)]).map Prod.fst =
        r.registered.map Prod.fst ++ [p] := List.map_append
    rw [Registry.arrive, hlockFor]
    constructor
    · rw [hkeys, hsame]
      exact (keys_setCount_of_notMem (hsame ▸ hkey) _).symm
    · rw [hkeys]
      refine List.nodup_append.2 ⟨hnodup, List.nodup_singleton p, ?_⟩
      rintro a ha b hb rfl
      exact hkey (List.mem_singleton.1 hb ▸ ha)

omit [DecidableEq ω] in
/-- A project loses its lock and its number together. -/
theorem release (h : r.Paired) (p : Uuid) : (r.release p).Paired := by
  obtain ⟨hsame, hnodup⟩ := h
  unfold Registry.release
  dsimp only
  split
  · constructor
    · show (dropKey r.registered p).map Prod.fst = (dropKey r.users p).map Prod.fst
      rw [keys_dropKey, keys_dropKey, hsame]
    · show ((dropKey r.registered p).map Prod.fst).Nodup
      rw [keys_dropKey]
      exact hnodup.filter _
  · rename_i hmany
    have hkey : p ∈ r.users.map Prod.fst := by
      rw [mem_keys_iff, Option.isSome_iff_ne_none]
      intro hnone
      rw [hnone] at hmany
      exact hmany rfl
    exact ⟨hsame.trans (keys_setCount_of_mem hkey _).symm, hnodup⟩

theorem leave (h : r.Paired) (u : ω) : (r.leave u).1.Paired := by
  unfold Registry.leave
  split
  · exact h
  · rename_i t _
    have hless : Paired { r with
        made := r.made.set t.lock (Mutex.part (r.lockAt t.lock) u).1
        tickets := r.tickets.filter (·.user != u) } := ⟨h.1, h.2⟩
    exact hless.release t.project

end Paired

/-! ### What a journal tells of a registry -/

/-- What an entry of a journal does to a registry.  Entering does nothing: whoever enters has got
the lock from the one who left. -/
def note (r : Registry ω) : Entry ω → Registry ω
  | .arrival u p => (r.arrive u p).1
  | .event (u, how) => if how = .enter then r else (r.leave u).1

/-- The registry that the entries of a journal make, one after another. -/
def told (J : List (Entry ω)) : Registry ω := J.foldl note empty

theorem told_append (J K : List (Entry ω)) : told (J ++ K) = K.foldl note (told J) :=
  List.foldl_append

theorem told_concat (J : List (Entry ω)) (e : Entry ω) : told (J ++ [e]) = (told J).note e :=
  told_append J [e]

/-- Nobody needs to be looked at for the keys of the tables. -/
theorem paired_told (J : List (Entry ω)) : (told J).Paired := by
  induction J using List.reverseRecOn with
  | nil => exact ⟨rfl, List.nodup_nil⟩
  | append_singleton J e ih =>
    rw [told_concat]
    match e with
    | .arrival u p => exact ih.arrive u p
    | .event (u, how) =>
      rw [note]
      split
      · exact ih
      · exact ih.leave u

/-- Taking a user out of every queue is taking it out of the queue that it is in. -/
theorem Shows.gone {r : Registry ω} {q : Uuid → List ω} (h : r.Shows q) (u : ω) :
    (r.leave u).1.Shows fun p => (q p).filter (· ≠ u) := by
  have hself (p : Uuid) (hp : u ∉ q p) : (q p).filter (· ≠ u) = q p := by
    refine List.filter_eq_self.2 fun v hv => ?_
    exact decide_eq_true fun hvu => hp (hvu ▸ hv)
  by_cases hu : ∃ p, u ∈ q p
  · obtain ⟨p, hu⟩ := hu
    have hupdate : (fun p => (q p).filter (· ≠ u)) = Function.update q p ((q p).erase u) := by
      funext p'
      by_cases hp : p' = p
      · subst hp
        rw [Function.update_self, (h.keeps p').nodup.erase_eq_filter]
        exact List.filter_congr fun v _ => by simp [bne, BEq.beq]
      · rw [Function.update_of_ne hp]
        exact hself p' fun hu' => hp (h.project_unique hu' hu)
    rw [hupdate]
    exact (h.leave hu).1
  · have hnone : ∀ p, u ∉ q p := fun p hp => hu ⟨p, hp⟩
    have hsame : (fun p => (q p).filter (· ≠ u)) = q := funext fun p => hself p (hnone p)
    rw [Registry.leave, h.stranger u hnone, hsame]
    exact h

/-- **Queues.**  The registry that a consistent journal tells of stands for the visitors of each
project. -/
theorem shows_told {J : List (Entry ω)} (h : Consistent J) :
    (told J).Shows fun p => visitors p J := by
  induction h with
  | nil => exact Idle.shows ⟨rfl, rfl, rfl⟩
  | @arrival J u p _ hu ih =>
    rw [told_concat, visitors_arrival]
    exact (ih.arrive hu p).1
  | @event J e _ ih =>
    obtain ⟨u, how⟩ := e
    rw [told_concat, note]
    by_cases hhow : how = .enter
    · subst hhow
      simp only [visitors_enter, if_true]
      exact ih
    · simp only [visitors_gone _ _ _ hhow, if_neg hhow]
      exact ih.gone u

/-! ### Exact accounts -/

/-- The accounts of a registry are right after the entries of a journal. -/
structure Exact (r : Registry ω) (J : List (Entry ω)) : Prop where
  /-- The two tables have the same keys. -/
  keys : r.registered.map Prod.fst = r.users.map Prod.fst
  /-- No key comes twice. -/
  distinct : (r.registered.map Prod.fst).Nodup
  /-- A number is kept for the projects with visitors, and it is the number of the visitors. -/
  count : ∀ p n, r.users.lookup p = some n ↔ 0 < n ∧ (present p J).length = n
  /-- Every visitor has a ticket for the lock that is registered for the project. -/
  ticket : ∀ p, ∀ v ∈ present p J,
    ∃ n, r.ticket? v.worker = some ⟨v.worker, p, n⟩ ∧ r.registered.lookup p = some n
  /-- For a project with visitors no other lock is made. -/
  reused : ∀ p, present p J ≠ [] → (r.lockFor p).2 = r
  /-- The size is the number of projects with visitors. -/
  size : r.size = {p | present p J ≠ []}.ncard
  /-- Whoever leaves finds a lock and a positive number for its project. -/
  found : ∀ u t, r.ticket? u = some t →
    r.registered.lookup t.project = some t.lock ∧ ∃ k, r.users.lookup t.project = some (k + 1)
  /-- Without visitors nothing is kept. -/
  idle : (∀ p, present p J = []) → r.Idle

section Exact

variable {r : Registry ω} {J : List (Entry ω)}

/-- A lock is registered for the projects with visitors. -/
theorem Shows.mem_keys_iff (h : r.Shows fun p => visitors p J) (p : Uuid) :
    p ∈ r.registered.map Prod.fst ↔ present p J ≠ [] := by
  rw [Registry.mem_keys_iff, ne_eq, ← visitors_eq_nil]
  cases hvisitors : visitors p J with
  | nil =>
    rw [(h.keeps p).unused hvisitors]
    exact iff_of_false Bool.false_ne_true fun hne => hne rfl
  | cons u us =>
    obtain ⟨n, hn, -⟩ := (h.keeps p).lock u us hvisitors
    rw [hn]
    exact iff_of_true rfl (List.cons_ne_nil u us)

/-- Queues and keys together are exact accounts. -/
theorem Shows.exact (h : r.Shows fun p => visitors p J) (hpaired : r.Paired) : r.Exact J := by
  obtain ⟨hsame, hnodup⟩ := hpaired
  constructor
  case keys => exact hsame
  case distinct => exact hnodup
  case count =>
    intro p n
    have hlength : (visitors p J).length = (present p J).length := List.length_map ..
    rw [(h.keeps p).count, ← hlength]
    cases visitors p J with
    | nil =>
      refine iff_of_false (fun hnone => nomatch hnone) fun ⟨hpos, hzero⟩ => ?_
      exact absurd hzero hpos.ne
    | cons u us =>
      rw [if_neg (List.cons_ne_nil u us), Option.some.injEq]
      refine ⟨fun hn => ⟨?_, hn⟩, fun hn => hn.2⟩
      rw [← hn, List.length_cons]
      exact Nat.succ_pos _
  case ticket =>
    intro p v hv
    exact (h.keeps p).ticket v.worker (List.mem_map_of_mem hv)
  case reused =>
    intro p hp
    have hsome := Registry.mem_keys_iff.1 ((h.mem_keys_iff p).2 hp)
    obtain ⟨n, hn⟩ := Option.isSome_iff_exists.1 hsome
    rw [lockFor, hn]
  case size =>
    have hset : {p | present p J ≠ []} = ↑(r.registered.map Prod.fst).toFinset := by
      ext p
      rw [List.coe_toFinset]
      exact (h.mem_keys_iff p).symm
    rw [hset, Set.ncard_coe_finset, List.toFinset_card_of_nodup hnodup, List.length_map,
      Registry.size]
  case found =>
    intro u t ht
    obtain ⟨p, hu⟩ := (h.isSome_ticket? u).1 (by rw [ht]; rfl)
    obtain ⟨n, ht', hn⟩ := (h.keeps p).ticket u hu
    rw [ht] at ht'
    obtain rfl := Option.some.inj ht'
    obtain ⟨v, vs, hvisitors, -⟩ := (h.keeps p).exists_cons hn
    refine ⟨hn, vs.length, ?_⟩
    rw [(h.keeps p).count, hvisitors, if_neg (List.cons_ne_nil v vs), List.length_cons]
  case idle =>
    intro hnobody
    have hregistered : r.registered = [] :=
      List.length_eq_zero_iff.1 (h.size_eq_zero fun p => visitors_eq_nil.2 (hnobody p))
    have husers : r.users = [] := by
      rw [hregistered, List.map_nil] at hsame
      exact List.map_eq_nil_iff.1 hsame.symm
    have htickets : r.tickets = [] := by
      -- whoever had a ticket would be a visitor
      refine List.eq_nil_iff_forall_not_mem.2 fun t ht => ?_
      have hsome : (r.ticket? t.user).isSome := List.find?_isSome.2 ⟨t, ht, decide_eq_true rfl⟩
      obtain ⟨p, hp⟩ := (h.isSome_ticket? t.user).1 hsome
      rw [visitors_eq_nil.2 (hnobody p)] at hp
      exact List.not_mem_nil hp
    exact ⟨hregistered, husers, htickets⟩

/-- The accounts are exact after every consistent journal. -/
theorem exact_told (h : Consistent J) : (told J).Exact J := (shows_told h).exact (paired_told J)

end Exact

end Registry

/-! ### The journals of workers -/

namespace Workers

open Registry

/-- Entering one after another does to the registry what the events say. -/
theorem registry_enter (n : Nat) (next : Option ω) (w : Workers ω) :
    (enter n next w).1.registry = ((enter n next w).2.map Entry.event).foldl note w.registry := by
  induction n generalizing next w with
  | zero => cases next <;> rfl
  | succ n ih =>
    cases next with
    | none => rfl
    | some worker =>
      rw [enter]
      cases w.orders.lookup worker with
      | none => rfl
      | some order =>
        dsimp only
        rw [ih, List.map_cons, List.map_cons, List.foldl_cons, List.foldl_cons]
        simp only [note, if_true, if_neg order.happening_ne_enter]
        rfl

theorem registry_quit (w : Workers ω) (worker : ω) {how : Happening} (hhow : how ≠ .enter) :
    (w.quit worker how).1.registry =
      ((w.quit worker how).2.map Entry.event).foldl note w.registry := by
  rw [quit]
  dsimp only
  rw [registry_enter, List.map_cons, List.foldl_cons]
  simp only [note, if_neg hhow]
  rfl

/-- **One step** does to the registry what is written down of it. -/
theorem registry_step (w : Workers ω) (s : Step ω) :
    (w.step s).1.registry = (w.entries s).foldl note w.registry := by
  cases s with
  | start u p =>
    rw [entries, arrivals, step]
    split
    · rfl
    · dsimp only
      split <;> rfl
  | order u order =>
    show _ = ((w.step (.order u order)).2.map Entry.event).foldl note w.registry
    rw [step]
    split
    · exact registry_quit w u order.happening_ne_enter
    · split <;> rfl
  | cancel u =>
    show _ = ((w.step (.cancel u)).2.map Entry.event).foldl note w.registry
    rw [step]
    split
    · refine registry_quit w u ?_
      rintro ⟨⟩
    · rfl

/-- What is written down of a step continues a consistent journal, because whoever has a ticket
does not arrive. -/
theorem consistent_entries {w : Workers ω} {J : List (Entry ω)} (h : Consistent J)
    (hw : w.registry = told J) (s : Step ω) : Consistent (J ++ w.entries s) := by
  rw [entries, ← List.append_assoc]
  refine Consistent.events ?_ _
  cases s with
  | start u p =>
    rw [arrivals]
    split
    · rw [List.append_nil]
      exact h
    · rename_i hnone
      refine .arrival h fun p' hu => hnone ?_
      rw [hw]
      exact ((shows_told h).isSome_ticket? u).2 ⟨p', hu⟩
  | order | cancel =>
    rw [arrivals, List.append_nil]
    exact h

/-- **All steps.**  The journal of workers is consistent, and it tells of their registry. -/
theorem consistent_run {w : Workers ω} {J : List (Entry ω)} (h : Consistent J)
    (hw : w.registry = told J) (steps : List (Step ω)) :
    Consistent (J ++ w.journal steps) ∧ (w.run steps).registry = told (J ++ w.journal steps) := by
  induction steps generalizing w J with
  | nil =>
    rw [journal, List.append_nil]
    exact ⟨h, hw⟩
  | cons s rest ih =>
    have hstep : (w.step s).1.registry = told (J ++ w.entries s) := by
      rw [registry_step, hw, told_append]
    have hrest := ih (consistent_entries h hw s) hstep
    rw [List.append_assoc] at hrest
    exact hrest

/-- **Exact accounts.**  The registry of workers is the one that their journal tells of, at every
moment its accounts are exact, and so they are whenever workers come and go in any other order, as
long as nobody arrives who is there already. -/
theorem registry_exact (steps : List (Step ω)) :
    ((empty : Workers ω).run steps).registry = told ((empty : Workers ω).journal steps) ∧
      (∀ J, J <+: (empty : Workers ω).journal steps → (told J).Exact J) ∧
      ∀ J : List (Entry ω), Consistent J → (told J).Exact J := by
  have hempty : (empty : Workers ω).registry = told [] := rfl
  obtain ⟨hconsistent, hregistry⟩ := consistent_run .nil hempty steps
  rw [List.nil_append] at hconsistent hregistry
  exact ⟨hregistry, fun J hJ => exact_told (hconsistent.of_prefix hJ), fun J hJ => exact_told hJ⟩

end Workers

end Agenda.Lock
