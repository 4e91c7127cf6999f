import Agenda.Lock.Workers
import Agenda.Proofs.Lock.Queues

/-!
# Workers in lines

What workers do with a registry can be told project by project, without locks and counts.  The
workers of a project stand in a line in the order of their arrival, the first of them inside, each
with the order that waits for it.  Whoever arrives goes to the end.  When the first one leaves, the
line advances: the next one enters, and if an order waits for it, it leaves at once and the line
advances again (`Line.advance`).

`Workers.Shows w lines` says that the workers `w` stand in these lines.  A step concerns one project
at most; it does to the line of that project what `Line.act` says, reports the same events, and
leaves all other lines alone (`Workers.Shows.step`).
-/

namespace Agenda.Lock

variable {ω : Type}

/-- The workers of a project in the order of arrival, each with the order that waits for it. -/
abbrev Line (ω : Type) := List (ω × Option Order)

namespace Line

def workers (line : Line ω) : List ω := line.map Prod.fst

/-- The first worker enters, and leaves at once if an order waits for it; then the next one enters,
and so on. -/
def advance : Line ω → Line ω × List (Event ω)
  | [] => ([], [])
  | (u, none) :: rest => ((u, none) :: rest, [(u, .enter)])
  | (u, some order) :: rest =>
    ((advance rest).1, (u, .enter) :: (u, order.happening) :: (advance rest).2)

/-- No order waits for the worker inside. -/
def Settled (line : Line ω) : Prop := ∀ x, line.head? = some x → x.2 = none

theorem settled_advance (line : Line ω) : line.advance.1.Settled := by
  induction line with
  | nil => exact fun _ hx => nomatch hx
  | cons x rest ih =>
    obtain ⟨u, _ | order⟩ := x
    · rintro _ ⟨⟩
      rfl
    · exact ih

variable [DecidableEq ω]

/-- The line without a worker. -/
def without (line : Line ω) (u : ω) : Line ω := line.filter (·.1 != u)

theorem mem_without {line : Line ω} {u : ω} {x : ω × Option Order} :
    x ∈ line.without u ↔ x ∈ line ∧ x.1 ≠ u := by
  rw [without, List.mem_filter, bne_iff_ne]

theorem workers_without {line : Line ω} (h : line.workers.Nodup) (u : ω) :
    (line.without u).workers = line.workers.erase u := by
  rw [h.erase_eq_filter, workers, workers, without, List.filter_map]
  rfl

/-- A worker leaves; if it was inside, the line advances. -/
def depart (line : Line ω) (u : ω) (how : Happening) : Line ω × List (Event ω) :=
  if line.workers.head? = some u then
    ((line.without u).advance.1, (u, how) :: (line.without u).advance.2)
  else (line.without u, [(u, how)])

/-- An order waits for a worker, unless one waits for it already. -/
def instruct (line : Line ω) (u : ω) (order : Order) : Line ω :=
  line.map fun x => if x.1 = u then (x.1, x.2.or (some order)) else x

@[simp] theorem workers_instruct (line : Line ω) (u : ω) (order : Order) :
    (line.instruct u order).workers = line.workers := by
  rw [workers, workers, instruct, List.map_map]
  refine List.map_congr_left fun x _ => ?_
  rw [Function.comp_apply]
  split <;> rfl

/-- What a step does to the line of the project that it concerns. -/
def act (line : Line ω) : Step ω → Line ω × List (Event ω)
  | .start u _ => (line ++ [(u, none)], if line.isEmpty then [(u, .enter)] else [])
  | .order u order =>
    if line.workers.head? = some u then line.depart u order.happening
    else (line.instruct u order, [])
  | .cancel u => line.depart u .cancelled

/-- Whatever happens to a line, no order is left waiting for the worker inside. -/
theorem settled_act {line : Line ω} (h : line.Settled) (s : Step ω) : (line.act s).1.Settled := by
  have hdepart (u : ω) (how : Happening) : (line.depart u how).1.Settled := by
    unfold depart
    split
    · exact settled_advance _
    · rename_i hother
      intro x hx
      cases line with
      | nil => cases hx
      | cons y rest =>
        have hne : y.1 ≠ u := fun he => hother (congrArg some he)
        rw [without, List.filter_cons_of_pos (by simpa using hne)] at hx
        exact h x hx
  cases s with
  | start u p =>
    intro x hx
    cases line with
    | nil =>
      cases hx
      rfl
    | cons y rest => exact h x hx
  | order u order =>
    rw [act]
    by_cases hhead : line.workers.head? = some u
    · rw [if_pos hhead]
      exact hdepart u _
    · rw [if_neg hhead]
      intro x hx
      cases line with
      | nil => cases hx
      | cons y rest =>
        have hne : y.1 ≠ u := fun he => hhead (congrArg some he)
        dsimp only at hx
        rw [instruct, List.map_cons, if_neg hne] at hx
        exact h x hx
  | cancel u => exact hdepart u .cancelled

end Line

/-- A step is about a worker in the line of a project, or about one that arrives there. -/
def Step.Concerns (lines : Uuid → Line ω) (p : Uuid) : Step ω → Prop
  | .start u p' => p' = p ∧ ∀ p, u ∉ (lines p).workers
  | .order u _ => u ∈ (lines p).workers
  | .cancel u => u ∈ (lines p).workers

namespace Workers

/-- The workers stand in these lines. -/
structure Shows [DecidableEq ω] (w : Workers ω) (lines : Uuid → Line ω) : Prop where
  /-- The registry stands for the workers of each line. -/
  registry : w.registry.Shows fun p => (lines p).workers
  /-- The orders are those that wait for the workers. -/
  orders : ∀ p, ∀ x ∈ lines p, w.orders.lookup x.1 = x.2
  /-- No order waits for anybody else. -/
  stranger : ∀ u, (∀ p, u ∉ (lines p).workers) → w.orders.lookup u = none

theorem shows_empty [DecidableEq ω] : (empty : Workers ω).Shows fun _ => [] where
  registry := Registry.Idle.shows ⟨rfl, rfl, rfl⟩
  orders := fun _ _ hx => absurd hx List.not_mem_nil
  stranger := fun _ _ => rfl

namespace Shows

variable {w w' : Workers ω} {lines : Uuid → Line ω} {line : Line ω} {p : Uuid} {u : ω}

theorem workers_update (lines : Uuid → Line ω) (p : Uuid) (line : Line ω) :
    (fun p' => (Function.update lines p line p').workers) =
      Function.update (fun p' => (lines p').workers) p line.workers := by
  funext p'
  by_cases hp' : p' = p
  · subst hp'
    rw [Function.update_self, Function.update_self]
  · rw [Function.update_of_ne hp', Function.update_of_ne hp']

variable [DecidableEq ω]

/-- **One line at a time.**  What changes one line may change no orders but those of its workers. -/
theorem update (h : w.Shows lines)
    (hregistry : w'.registry.Shows
      (Function.update (fun p => (lines p).workers) p line.workers))
    (horders : ∀ x ∈ line, w'.orders.lookup x.1 = x.2)
    (hgone : ∀ v ∈ (lines p).workers, v ∉ line.workers → w'.orders.lookup v = none)
    (hothers : ∀ v, v ∉ (lines p).workers → v ∉ line.workers →
      w'.orders.lookup v = w.orders.lookup v) : w'.Shows (Function.update lines p line) := by
  rw [← workers_update] at hregistry
  refine ⟨hregistry, fun p' x hx => ?_, fun v hv => ?_⟩
  · by_cases hp' : p' = p
    · subst hp'
      rw [Function.update_self] at hx
      exact horders x hx
    · -- a worker of another line is in neither version of this one
      have hmem : x.1 ∈ (Function.update lines p line p').workers := List.mem_map_of_mem hx
      rw [Function.update_of_ne hp'] at hx
      rw [hothers x.1, h.orders p' x hx]
      · exact fun hold => hp' (h.registry.project_unique (List.mem_map_of_mem hx) hold)
      · intro hnew
        refine hp' (hregistry.project_unique hmem ?_)
        rwa [Function.update_self]
  · have hout : v ∉ line.workers := by
      have hself := hv p
      rwa [Function.update_self] at hself
    by_cases hold : v ∈ (lines p).workers
    · exact hgone v hold hout
    · rw [hothers v hold hout]
      refine h.stranger v fun p' => ?_
      by_cases hp' : p' = p
      · rwa [hp']
      · have hother := hv p'
        rwa [Function.update_of_ne hp'] at hother

/-! ### Leaving -/

/-- A worker leaves, and takes the order that waits for it along. -/
theorem left (h : w.Shows lines) (hu : u ∈ (lines p).workers) :
    ((⟨(w.registry.leave u).1, w.orders⟩ : Workers ω).dropOrders u).Shows
        (Function.update lines p ((lines p).without u)) ∧
      (w.registry.leave u).2 = if (lines p).workers.head? = some u
        then ((lines p).without u).workers.head? else none := by
  obtain ⟨hleave, hnext⟩ := h.registry.leave (p := p) hu
  rw [← Line.workers_without (h.registry.keeps p).nodup] at hleave hnext
  refine ⟨h.update hleave ?orders ?gone ?others, hnext⟩
  case orders =>
    intro x hx
    obtain ⟨hx, hne⟩ := Line.mem_without.1 hx
    show (w.orders.filter (·.1 != u)).lookup x.1 = x.2
    rw [Registry.lookup_filter_ne, if_neg hne, h.orders p x hx]
  case gone =>
    intro v hv hout
    show (w.orders.filter (·.1 != u)).lookup v = none
    rw [Registry.lookup_filter_ne]
    split
    · rfl
    · rename_i hne
      obtain ⟨x, hx, rfl⟩ := List.mem_map.1 hv
      exact absurd (List.mem_map_of_mem (Line.mem_without.2 ⟨hx, hne⟩)) hout
  case others =>
    intro v hv _
    show (w.orders.filter (·.1 != u)).lookup v = _
    rw [Registry.lookup_filter_ne, if_neg fun (he : v = u) => hv (he ▸ hu)]

/-- Entering, one after another, as the line advances. -/
theorem enter (h : w.Shows (Function.update lines p line)) {n : Nat} (hn : line.length ≤ n) :
    (enter n line.workers.head? w).1.Shows (Function.update lines p line.advance.1) ∧
      (Workers.enter n line.workers.head? w).2 = line.advance.2 := by
  induction line generalizing w n with
  | nil =>
    have hnobody : Workers.enter n none w = (w, []) := by
      cases n <;> rfl
    show (Workers.enter n none w).1.Shows _ ∧ (Workers.enter n none w).2 = []
    rw [hnobody]
    exact ⟨h, rfl⟩
  | cons x rest ih =>
    obtain ⟨u, o⟩ := x
    obtain ⟨m, rfl⟩ : ∃ m, n = m + 1 := ⟨n - 1, by rw [List.length_cons] at hn; omega⟩
    have hself : Function.update lines p ((u, o) :: rest) p = (u, o) :: rest :=
      Function.update_self ..
    have horder : w.orders.lookup u = o :=
      h.orders p (u, o) (by rw [hself]; exact List.mem_cons_self)
    have hhead : Line.workers ((u, o) :: rest) = u :: Line.workers rest := rfl
    rw [hhead, List.head?_cons, Workers.enter, horder]
    cases o with
    | none => exact ⟨h, rfl⟩
    | some order =>
      -- the worker leaves at once, and the rest of the line goes on
      obtain ⟨hleft, hnext⟩ := h.left (u := u) (p := p) (by rw [hself]; exact List.mem_cons_self)
      have hnodup := (h.registry.keeps p).nodup
      rw [hself] at hleft hnext hnodup
      have hout : ∀ x ∈ rest, (x.1 != u) = true := by
        intro x hx
        have hnot := (List.nodup_cons.1 hnodup).1
        exact bne_iff_ne.2 fun he => hnot (List.mem_map.2 ⟨x, hx, he⟩)
      have hrest : Line.without ((u, some order) :: rest) u = rest := by
        rw [Line.without, List.filter_cons_of_neg (by simp), List.filter_eq_self.2 hout]
      rw [hrest, hhead, List.head?_cons, if_pos rfl] at hnext
      rw [hrest, Function.update_idem] at hleft
      obtain ⟨hshows, hevents⟩ := ih hleft (n := m) (by rw [List.length_cons] at hn; omega)
      dsimp only
      rw [hnext]
      exact ⟨hshows, by rw [hevents]; rfl⟩

/-- A worker leaves, and whoever gets its lock enters. -/
theorem quit (h : w.Shows lines) (hu : u ∈ (lines p).workers) (how : Happening) :
    (w.quit u how).1.Shows (Function.update lines p ((lines p).depart u how).1) ∧
      (w.quit u how).2 = ((lines p).depart u how).2 := by
  obtain ⟨hleft, hnext⟩ := h.left hu
  unfold Workers.quit Line.depart
  dsimp only
  rw [hnext]
  split
  · have hlen := h.registry.length_le p
    rw [Line.workers, List.length_map] at hlen
    have hless : ((lines p).without u).length ≤ (lines p).length := List.length_filter_le _ _
    obtain ⟨hshows, hevents⟩ := hleft.enter (Nat.le_trans hless hlen)
    exact ⟨hshows, by rw [hevents]⟩
  · -- nobody enters in the place of a worker that waited
    have hnobody (n : Nat) (w : Workers ω) : Workers.enter n none w = (w, []) := by
      cases n <;> rfl
    rw [hnobody]
    exact ⟨hleft, rfl⟩

/-! ### Steps -/

/-- A worker arrives. -/
theorem start (h : w.Shows lines) (hu : ∀ p, u ∉ (lines p).workers) (p : Uuid) :
    (w.step (.start u p)).1.Shows (Function.update lines p ((lines p).act (.start u p)).1) ∧
      (w.step (.start u p)).2 = ((lines p).act (.start u p)).2 := by
  obtain ⟨harrive, hentered⟩ := h.registry.arrive hu p
  have hstep : w.step (.start u p) = (⟨(w.registry.arrive u p).1, w.orders⟩,
      if (w.registry.arrive u p).2 then [(u, .enter)] else []) := by
    rw [Workers.step, h.registry.stranger u hu]
    rfl
  have hempty : (lines p).workers.isEmpty = (lines p).isEmpty := List.isEmpty_map
  rw [hstep, hentered, hempty]
  refine ⟨h.update ?registry ?orders ?gone ?others, rfl⟩
  case registry =>
    have hworkers : Line.workers (lines p ++ [(u, none)]) = (lines p).workers ++ [u] :=
      List.map_append
    rw [Line.act, hworkers]
    exact harrive
  case orders =>
    intro x hx
    rcases List.mem_append.1 hx with hx | hx
    · exact h.orders p x hx
    · rw [List.mem_singleton.1 hx]
      exact h.stranger u hu
  case gone =>
    intro v hv hout
    obtain ⟨x, hx, rfl⟩ := List.mem_map.1 hv
    exact absurd (List.mem_map_of_mem (List.mem_append_left _ hx)) hout
  case others => exact fun _ _ _ => rfl

/-- An order waits for a worker that waits itself. -/
theorem instruct (h : w.Shows lines) (hu : u ∈ (lines p).workers) (hfree : w.orders.lookup u = none)
    (order : Order) : (⟨w.registry, w.orders ++ [(u, order)]⟩ : Workers ω).Shows
      (Function.update lines p ((lines p).instruct u order)) := by
  have hlookup (v : ω) : (w.orders ++ [(u, order)]).lookup v =
      if v = u then some order else w.orders.lookup v := by
    rw [List.lookup_append, List.lookup_cons, List.lookup_nil]
    by_cases hv : v = u
    · subst hv
      simp [hfree]
    · simp [hv, beq_eq_false_iff_ne.2 hv]
  refine h.update ?registry ?orders ?gone ?others
  case registry =>
    rw [Line.workers_instruct, Function.update_eq_self]
    exact h.registry
  case orders =>
    intro x' hx'
    obtain ⟨x, hx, rfl⟩ := List.mem_map.1 hx'
    have hold := h.orders p x hx
    dsimp only
    split
    · rename_i hxu
      rw [hxu, hfree] at hold
      dsimp only
      rw [hlookup, if_pos hxu, ← hold]
      rfl
    · rename_i hxu
      rw [hlookup, if_neg hxu, hold]
  case gone =>
    intro v hv hout
    rw [Line.workers_instruct] at hout
    exact absurd hv hout
  case others =>
    intro v hv _
    dsimp only
    rw [hlookup, if_neg fun (he : v = u) => hv (he ▸ hu)]

/-- **One step.**  A step that concerns a project does to its line what it does to a line. -/
theorem step (h : w.Shows lines) {s : Step ω} (hs : s.Concerns lines p) :
    (w.step s).1.Shows (Function.update lines p ((lines p).act s).1) ∧
      (w.step s).2 = ((lines p).act s).2 := by
  cases s with
  | start u p' =>
    obtain ⟨rfl, hu⟩ := hs
    exact h.start hu p'
  | cancel u =>
    have hticket := (h.registry.isSome_ticket? u).2 ⟨p, hs⟩
    rw [Workers.step, if_pos hticket]
    exact h.quit hs .cancelled
  | order u order =>
    have hticket := (h.registry.isSome_ticket? u).2 ⟨p, hs⟩
    have hinside := h.registry.isInside_iff hs
    rw [Workers.step, Line.act]
    by_cases hhead : (lines p).workers.head? = some u
    · rw [if_pos (hinside.2 hhead), if_pos hhead]
      exact h.quit hs order.happening
    · rw [if_neg fun hin => hhead (hinside.1 hin), if_neg hhead, hticket, Bool.true_and]
      cases hfree : w.orders.lookup u with
      | none => exact ⟨h.instruct hs hfree order, rfl⟩
      | some first =>
        -- the first order that was kept is the one that counts
        have hsame : (lines p).instruct u order = lines p := by
          refine (List.map_congr_left fun x hx => ?_).trans (List.map_id _)
          split
          · rename_i hxu
            have hold := h.orders p x hx
            rw [hxu, hfree] at hold
            rw [← hold]
            exact Prod.ext rfl hold
          · rfl
        dsimp only
        rw [hsame, Function.update_eq_self]
        exact ⟨h, rfl⟩

/-- Whoever does not arrive anew is there. -/
theorem isSome_ticket? (h : w.Shows lines) (hs : ¬ (Step.start u p).Concerns lines p) :
    (w.registry.ticket? u).isSome = true := by
  refine (h.registry.isSome_ticket? u).2 (by_contra fun hno => hs ⟨rfl, fun p' hp' => ?_⟩)
  exact hno ⟨p', hp'⟩

/-- A step that concerns no project does nothing. -/
theorem step_of_not_concerns (h : w.Shows lines) {s : Step ω} (hs : ∀ p, ¬ s.Concerns lines p) :
    w.step s = (w, []) := by
  have hnone {u : ω} (hu : ∀ p, u ∉ (lines p).workers) : (w.registry.ticket? u).isSome = false := by
    rw [h.registry.stranger u hu]
    rfl
  cases s with
  | start u p => rw [Workers.step, if_pos (h.isSome_ticket? (hs p))]
  | order u order =>
    rw [Workers.step, h.registry.isInside_of_stranger hs, hnone hs]
    rfl
  | cancel u =>
    rw [Workers.step, hnone hs]
    rfl

end Shows

end Workers

end Agenda.Lock
