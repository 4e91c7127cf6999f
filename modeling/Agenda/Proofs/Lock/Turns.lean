import Agenda.Proofs.Lock.Lines

/-!
# Taking turns

A journal writes down, in their order, the arrivals of workers and all that happens to them
(`Workers.journal`).  From a journal, or from the beginning of one, the visits to a project can be
read off: who came, in the order of arrival, whether it has entered, and how its visit has ended
(`visits`).

Workers take turns (`Workers.turns_taken`).  At no moment are two of them inside for one project;
they enter in the order of their arrival, and only those who are cancelled before are passed over;
and after each step, the first of those whose visits have not ended is inside, and the project is
locked for it.  A worker inside goes when it is told to, and any worker when it is cancelled.

For one project, what the journal says leads from room to room: a `Room` knows who is inside and who
waits, and `Turn` lists the ways in which an entry can change it.  A step of the workers is a course
of turns for every project (`Workers.Shows.turns_step`), and whatever turns are taken, the visits
stay in order (`Turns.orderly`).
-/

namespace Agenda.Lock

variable {ω : Type}

/-! ### Journals and visits -/

/-- What a journal writes down. -/
inductive Entry (ω : Type)
  /-- A worker comes for a project. -/
  | arrival (worker : ω) (project : Uuid)
  /-- Something happens to a worker. -/
  | event (event : Event ω)

/-- The stay of a worker, from its arrival on. -/
structure Visit (ω : Type) where
  worker : ω
  /-- It has been inside. -/
  entered : Bool
  /-- How it is over, if it is. -/
  ended : Option Happening
  deriving DecidableEq, Repr

namespace Visit

/-- The visit is not over. -/
def isOpen (v : Visit ω) : Bool := v.ended.isNone

/-- The worker is inside. -/
def isInside (v : Visit ω) : Bool := v.entered && v.isOpen

def inside (u : ω) : Visit ω := ⟨u, true, none⟩

def waiting (u : ω) : Visit ω := ⟨u, false, none⟩

variable [DecidableEq ω]

/-- What an event makes of a visit: nothing, unless it happens to the worker and the visit is not
over. -/
def hear (e : Event ω) (v : Visit ω) : Visit ω :=
  if v.worker = e.1 ∧ v.isOpen then
    if e.2 = .enter then { v with entered := true } else { v with ended := some e.2 }
  else v

end Visit

section Visits

variable [DecidableEq ω]

/-- The visits to a project after one more entry. -/
def visits.note (p : Uuid) (vs : List (Visit ω)) : Entry ω → List (Visit ω)
  | .arrival u p' => if p' = p then vs ++ [.waiting u] else vs
  | .event e => vs.map (Visit.hear e)

/-- The visits to a project that a journal tells of, in the order of arrival. -/
def visits (p : Uuid) (journal : List (Entry ω)) : List (Visit ω) :=
  journal.foldl (visits.note p) []

namespace Workers

/-- The arrival that is written down of a step, if there is one.  A worker whose visit is not over
does not arrive again. -/
def arrivals (w : Workers ω) : Step ω → List (Entry ω)
  | .start u p => if (w.registry.ticket? u).isSome then [] else [.arrival u p]
  | .order .. | .cancel _ => []

/-- What is written down of a step. -/
def entries (w : Workers ω) (s : Step ω) : List (Entry ω) :=
  w.arrivals s ++ (w.step s).2.map .event

/-- What is written down of steps. -/
def journal : Workers ω → List (Step ω) → List (Entry ω)
  | _, [] => []
  | w, s :: rest => w.entries s ++ (w.step s).1.journal rest

end Workers

end Visits

/-! ### Rooms -/

/-- Who is inside, and who waits, the first in front. -/
structure Room (ω : Type) where
  inside : Option ω
  waiting : List ω

namespace Room

def workers (r : Room ω) : List ω := r.inside.toList ++ r.waiting

/-- The visits that are not over. -/
def visits (r : Room ω) : List (Visit ω) :=
  r.inside.toList.map .inside ++ r.waiting.map .waiting

theorem map_worker_visits (r : Room ω) : r.visits.map (·.worker) = r.workers := by
  rw [visits, workers, List.map_append, List.map_map, List.map_map]
  exact congrArg₂ _ (List.map_id _) (List.map_id _)

theorem mem_visits {r : Room ω} {v : Visit ω} : v ∈ r.visits ↔
    (∃ u, r.inside = some u ∧ v = .inside u) ∨ ∃ u ∈ r.waiting, v = .waiting u := by
  simp only [visits, List.mem_append, List.mem_map, Option.mem_toList, eq_comm]

theorem worker_mem {r : Room ω} {v : Visit ω} (hv : v ∈ r.visits) : v.worker ∈ r.workers := by
  rw [← r.map_worker_visits]
  exact List.mem_map_of_mem hv

/-- Its visits are not over. -/
theorem filter_visits (r : Room ω) : r.visits.filter Visit.isOpen = r.visits := by
  refine List.filter_eq_self.2 fun v hv => ?_
  rcases mem_visits.1 hv with ⟨u, -, rfl⟩ | ⟨u, -, rfl⟩ <;> rfl

end Room

/-- The room of a line at rest: the first worker is inside. -/
def Line.room (line : Line ω) : Room ω := ⟨line.workers.head?, line.workers.tail⟩

theorem Line.workers_room (line : Line ω) : line.room.workers = line.workers := by
  cases line <;> rfl

section Turns

variable [DecidableEq ω] {p : Uuid} {r r' r'' : Room ω} {J J' : List (Entry ω)}

/-- What an entry of a journal can do to the room of a project. -/
inductive Turn (p : Uuid) : Room ω → Entry ω → Room ω → Prop
  | arrive {i : Option ω} {ws : List ω} {u : ω} (hu : u ∉ (⟨i, ws⟩ : Room ω).workers) :
    Turn p ⟨i, ws⟩ (.arrival u p) ⟨i, ws ++ [u]⟩
  | enter {u : ω} {ws : List ω} : Turn p ⟨none, u :: ws⟩ (.event (u, .enter)) ⟨some u, ws⟩
  | leave {u : ω} {ws : List ω} {how : Happening} (h : how ≠ .enter) :
    Turn p ⟨some u, ws⟩ (.event (u, how)) ⟨none, ws⟩
  | giveUp {i : Option ω} {ws : List ω} {u : ω} (hu : u ∈ ws) :
    Turn p ⟨i, ws⟩ (.event (u, .cancelled)) ⟨i, ws.erase u⟩
  | elsewhere {r : Room ω} {u : ω} {p' : Uuid} (hp : p' ≠ p) : Turn p r (.arrival u p') r
  | stranger {r : Room ω} {e : Event ω} (he : e.1 ∉ r.workers) : Turn p r (.event e) r

/-- A course of turns. -/
inductive Turns (p : Uuid) : Room ω → List (Entry ω) → Room ω → Prop
  | nil {r : Room ω} : Turns p r [] r
  | cons {r r' r'' : Room ω} {e : Entry ω} {J : List (Entry ω)} (h : Turn p r e r')
    (hrest : Turns p r' J r'') : Turns p r (e :: J) r''

namespace Turns

theorem append (h : Turns p r J r') (h' : Turns p r' J' r'') : Turns p r (J ++ J') r'' := by
  induction h with
  | nil => exact h'
  | cons hturn _ ih => exact .cons hturn (ih h')

/-- The beginning of a course. -/
theorem beginning (h : Turns p r J r'') (hJ : J' <+: J) : ∃ r', Turns p r J' r' := by
  induction h generalizing J' with
  | nil =>
    rw [List.prefix_nil.1 hJ]
    exact ⟨_, .nil⟩
  | @cons r r' r'' e J hturn _ ih =>
    rcases List.prefix_cons_iff.1 hJ with rfl | ⟨K, rfl, hK⟩
    · exact ⟨_, .nil⟩
    · obtain ⟨_, hrest⟩ := ih hK
      exact ⟨_, .cons hturn hrest⟩

/-- What happens to others leaves a room alone. -/
theorem strangers {events : List (Event ω)} (h : ∀ e ∈ events, e.1 ∉ r.workers) :
    Turns p r (events.map .event) r := by
  induction events with
  | nil => exact .nil
  | cons e events ih =>
    exact .cons (.stranger (h e List.mem_cons_self))
      (ih fun e' he' => h e' (List.mem_cons_of_mem _ he'))

end Turns

/-! ### Steps as turns -/

theorem Order.happening_ne_enter (order : Order) : order.happening ≠ .enter := by
  cases order <;> decide

namespace Line

/-- Advancing is a course of turns, from the moment when nobody is inside. -/
theorem turns_advance (p : Uuid) (line : Line ω) :
    Turns p ⟨none, line.workers⟩ (line.advance.2.map .event) line.advance.1.room := by
  induction line with
  | nil => exact .nil
  | cons x rest ih =>
    obtain ⟨u, _ | order⟩ := x
    · exact .cons .enter .nil
    · exact .cons .enter (.cons (.leave order.happening_ne_enter) ih)

theorem turns_depart (p : Uuid) {line : Line ω} (hnodup : line.workers.Nodup) {u : ω}
    (hu : u ∈ line.workers) {how : Happening}
    (hhow : how = .cancelled ∨ line.workers.head? = some u ∧ how ≠ .enter) :
    Turns p line.room ((line.depart u how).2.map .event) (line.depart u how).1.room := by
  have hwithout := workers_without hnodup u
  unfold depart
  cases line with
  | nil => cases hu
  | cons x rest =>
    have hroom : room (x :: rest) = ⟨some x.1, workers rest⟩ := rfl
    have hworkers : workers (x :: rest) = x.1 :: workers rest := rfl
    rw [hworkers] at hwithout hu hhow ⊢
    rw [hroom, List.head?_cons]
    by_cases hx : x.1 = u
    · -- the first worker leaves, and the line advances
      subst hx
      rw [List.erase_cons_head] at hwithout
      rw [if_pos rfl]
      refine .cons (.leave ?_) (hwithout ▸ turns_advance p (without (x :: rest) x.1))
      rcases hhow with rfl | ⟨-, hne⟩
      · exact fun h => nomatch h
      · exact hne
    · -- a worker that waits can only be cancelled
      have hcancelled : how = .cancelled :=
        hhow.resolve_right fun hhead => hx (Option.some.inj hhead.1)
      subst hcancelled
      have hfirst : without (x :: rest) u = x :: without rest u :=
        List.filter_cons_of_pos (by simpa using hx)
      rw [hfirst, List.erase_cons_tail (by simpa using hx)] at hwithout
      have hrest : workers (without rest u) = (workers rest).erase u :=
        List.tail_eq_of_cons_eq hwithout
      rw [if_neg fun h => hx (Option.some.inj h), hfirst]
      show Turns p _ _ ⟨some x.1, workers (without rest u)⟩
      rw [hrest]
      exact .cons (.giveUp ((List.mem_cons.1 hu).resolve_left (Ne.symm hx))) .nil

theorem turns_start {p : Uuid} {line : Line ω} {u : ω} (hu : u ∉ line.workers) :
    Turns p line.room (.arrival u p :: (line.act (.start u p)).2.map .event)
      (line.act (.start u p)).1.room := by
  cases line with
  | nil => exact .cons (.arrive List.not_mem_nil) (.cons .enter .nil)
  | cons x rest =>
    have hroom : room (x :: rest ++ [(u, none)]) = ⟨some x.1, workers rest ++ [u]⟩ :=
      congrArg (Room.mk (some x.1)) List.map_append
    rw [act, hroom]
    exact .cons (.arrive hu) .nil

theorem turns_order (p : Uuid) {line : Line ω} (hnodup : line.workers.Nodup) {u : ω}
    (hu : u ∈ line.workers) (order : Order) :
    Turns p line.room ((line.act (.order u order)).2.map .event)
      (line.act (.order u order)).1.room := by
  rw [act]
  by_cases hhead : line.workers.head? = some u
  · rw [if_pos hhead]
    exact turns_depart p hnodup hu (.inr ⟨hhead, order.happening_ne_enter⟩)
  · -- an order that waits changes nothing that can be seen
    have hroom : (line.instruct u order).room = line.room := by
      rw [room, room, workers_instruct]
    rw [if_neg hhead, hroom]
    exact .nil

omit [DecidableEq ω] in
/-- Advancing happens to the workers of the line only. -/
theorem mem_advance {line : Line ω} {e : Event ω} (he : e ∈ line.advance.2) :
    e.1 ∈ line.workers := by
  induction line with
  | nil => cases he
  | cons x rest ih =>
    obtain ⟨u, _ | order⟩ := x
    · rw [List.mem_singleton.1 he]
      exact List.mem_cons_self
    · rcases List.mem_cons.1 he with rfl | he
      · exact List.mem_cons_self
      · rcases List.mem_cons.1 he with rfl | he
        · exact List.mem_cons_self
        · exact List.mem_cons_of_mem _ (ih he)

theorem mem_depart {line : Line ω} {u : ω} (hu : u ∈ line.workers) {how : Happening} {e : Event ω}
    (he : e ∈ (line.depart u how).2) : e.1 ∈ line.workers := by
  unfold depart at he
  split at he
  · rcases List.mem_cons.1 he with rfl | he
    · exact hu
    · obtain ⟨x, hx, hxe⟩ := List.mem_map.1 (mem_advance he)
      exact List.mem_map.2 ⟨x, (mem_without.1 hx).1, hxe⟩
  · rw [List.mem_singleton.1 he]
    exact hu

end Line

namespace Workers.Shows

variable {w : Workers ω} {lines : Uuid → Line ω} {s : Step ω} {q : Uuid}

/-- What happens in a step happens to the workers of the line, or to the one who arrives. -/
theorem not_mem_line (h : w.Shows lines) (hs : s.Concerns lines q) (hp : p ≠ q) :
    ∀ e ∈ ((lines q).act s).2, e.1 ∉ (lines p).room.workers := by
  intro e he hmem
  rw [Line.workers_room] at hmem
  have hout (hin : e.1 ∈ (lines q).workers) : False := hp (h.registry.project_unique hmem hin)
  cases s with
  | start u q' =>
    rw [Line.act] at he
    dsimp only at he
    split at he
    · rw [List.mem_singleton.1 he] at hmem
      exact hs.2 p hmem
    · cases he
  | order u order =>
    rw [Line.act] at he
    split at he
    · exact hout (Line.mem_depart hs he)
    · cases he
  | cancel u => exact hout (Line.mem_depart hs he)

/-- **One step.**  What is written down of a step is a course of turns for every project. -/
theorem turns_step (h : w.Shows lines) (hs : s.Concerns lines q) (p : Uuid) :
    Turns p (lines p).room (w.entries s)
      (Function.update lines q ((lines q).act s).1 p).room := by
  have hnodup := (h.registry.keeps q).nodup
  rw [Workers.entries, (h.step hs).2]
  by_cases hp : p = q
  · subst hp
    rw [Function.update_self]
    cases s with
    | start u p' =>
      obtain ⟨rfl, hu⟩ := hs
      have harrivals : w.arrivals (.start u p') = [.arrival u p'] := by
        rw [arrivals, h.registry.stranger u hu]
        rfl
      rw [harrivals]
      exact Line.turns_start (hu p')
    | order u order => exact Line.turns_order p hnodup hs order
    | cancel u => exact Line.turns_depart p hnodup hs (.inl rfl)
  · rw [Function.update_of_ne hp]
    refine .append ?_ (.strangers (h.not_mem_line hs hp))
    cases s with
    | start u q' =>
      obtain ⟨rfl, -⟩ := hs
      rw [arrivals]
      split
      · exact .nil
      · exact .cons (.elsewhere (Ne.symm hp)) .nil
    | order u order => exact .nil
    | cancel u => exact .nil

/-- A step that concerns no project is not even written down. -/
theorem entries_of_not_concerns (h : w.Shows lines) (hs : ∀ p, ¬ s.Concerns lines p) :
    w.entries s = [] := by
  rw [Workers.entries, h.step_of_not_concerns hs, List.map_nil, List.append_nil]
  cases s with
  | start u p => rw [arrivals, if_pos (h.isSome_ticket? (hs p))]
  | order | cancel => rfl

/-- **All steps.**  From lines at rest, steps lead to lines at rest, and what is written down on the
way is a course of turns for every project. -/
theorem turns_run (h : w.Shows lines) (hsettled : ∀ p, (lines p).Settled) (steps : List (Step ω)) :
    ∃ lines', (w.run steps).Shows lines' ∧ (∀ p, (lines' p).Settled) ∧
      ∀ p, Turns p (lines p).room (w.journal steps) (lines' p).room := by
  induction steps generalizing w lines with
  | nil => exact ⟨lines, h, hsettled, fun _ => .nil⟩
  | cons s rest ih =>
    by_cases hs : ∃ q, s.Concerns lines q
    · obtain ⟨q, hs⟩ := hs
      obtain ⟨lines', hshows, hsettled', hturns⟩ := ih (h.step hs).1 fun p => by
        by_cases hp : p = q
        · subst hp
          rw [Function.update_self]
          exact Line.settled_act (hsettled p) s
        · rw [Function.update_of_ne hp]
          exact hsettled p
      exact ⟨lines', hshows, hsettled', fun p => (h.turns_step hs p).append (hturns p)⟩
    · have hnone : ∀ q, ¬ s.Concerns lines q := fun q hq => hs ⟨q, hq⟩
      have hstep := h.step_of_not_concerns hnone
      have hjournal : w.journal (s :: rest) = w.journal rest := by
        rw [journal, h.entries_of_not_concerns hnone, hstep, List.nil_append]
      have hrun : w.run (s :: rest) = w.run rest := by
        rw [run, List.foldl_cons, hstep, run]
      rw [hjournal, hrun]
      exact ih h hsettled

end Workers.Shows

/-! ### Visits in order -/

namespace Visit

variable {u : ω} {how : Happening} {v : Visit ω} {e : Event ω}

theorem hear_of_ne (h : v.worker ≠ e.1) : v.hear e = v := if_neg fun hboth => h hboth.1

theorem hear_of_over (h : v.isOpen = false) : v.hear e = v :=
  if_neg fun hboth => Bool.false_ne_true (h.symm.trans hboth.2)

/-- Entering does not end a visit. -/
theorem ended_hear_enter (u : ω) (v : Visit ω) : (v.hear (u, .enter)).ended = v.ended := by
  unfold hear
  split <;> rfl

theorem entered_hear_enter (h : (v.hear (u, .enter)).entered = true) :
    v.entered = true ∨ v.isOpen = true ∧ v.worker = u := by
  unfold hear at h
  split at h
  · rename_i hboth
    exact .inr ⟨hboth.2, hboth.1⟩
  · exact .inl h

/-- The end of a visit does not make a worker enter. -/
theorem entered_hear (hhow : how ≠ .enter) (u : ω) (v : Visit ω) :
    (v.hear (u, how)).entered = v.entered := by
  simp only [hear, if_neg hhow]
  split <;> rfl

theorem ended_hear {how' : Happening} (hhow : how ≠ .enter)
    (h : (v.hear (u, how)).ended = some how') :
    v.ended = some how' ∨ v.isOpen = true ∧ v.worker = u ∧ how' = how := by
  simp only [hear, if_neg hhow] at h
  split at h
  · rename_i hboth
    exact .inr ⟨hboth.2, hboth.1, (Option.some.inj h).symm⟩
  · exact .inl h

end Visit

/-- What is over is out of the question when an event is heard of. -/
theorem Visit.filter_hear (vs : List (Visit ω)) (e : Event ω) :
    (vs.map (hear e)).filter isOpen = ((vs.filter isOpen).map (hear e)).filter isOpen := by
  induction vs with
  | nil => rfl
  | cons v vs ih =>
    cases hv : v.isOpen with
    | true => rw [List.filter_cons_of_pos hv, List.map_cons, List.map_cons, List.filter_cons,
        List.filter_cons, ih]
    | false =>
      have hover : ¬ v.isOpen = true := by rw [hv]; exact Bool.false_ne_true
      rw [List.filter_cons_of_neg hover, List.map_cons, hear_of_over hv,
        List.filter_cons_of_neg hover, ih]

/-- What happens to others leaves visits alone. -/
theorem Visit.map_hear {vs : List (Visit ω)} {e : Event ω}
    (h : ∀ v ∈ vs, v.isOpen → v.worker ≠ e.1) : vs.map (hear e) = vs := by
  refine (List.map_congr_left fun v hv => ?_).trans (List.map_id vs)
  cases hopen : v.isOpen with
  | true => exact hear_of_ne (h v hv hopen)
  | false => exact hear_of_over hopen

namespace Room

/-- What happens to others leaves those who wait alone. -/
theorem hear_waiting {ws : List ω} {e : Event ω} (h : e.1 ∉ ws) :
    (ws.map Visit.waiting).map (Visit.hear e) = ws.map .waiting := by
  refine Visit.map_hear fun v hv _ hve => h ?_
  obtain ⟨w, hw, rfl⟩ := List.mem_map.1 hv
  have hwe : w = e.1 := hve
  rwa [← hwe]

/-- Of those who wait, one is cancelled. -/
theorem filter_hear_waiting {ws : List ω} (h : ws.Nodup) (u : ω) :
    ((ws.map Visit.waiting).map (Visit.hear (u, .cancelled))).filter Visit.isOpen =
      (ws.erase u).map .waiting := by
  induction ws with
  | nil => rfl
  | cons w ws ih =>
    obtain ⟨hout, hnodup⟩ := List.nodup_cons.1 h
    rw [List.map_cons, List.map_cons]
    by_cases hw : w = u
    · subst hw
      have hself : ¬ ((Visit.waiting w).hear (w, .cancelled)).isOpen = true := by
        simp [Visit.hear, Visit.waiting, Visit.isOpen]
      rw [List.filter_cons_of_neg hself, hear_waiting hout, List.erase_cons_head]
      exact filter_visits ⟨none, ws⟩
    · have hself : (Visit.waiting w).hear (u, .cancelled) = .waiting w := Visit.hear_of_ne hw
      rw [hself, List.filter_cons_of_pos rfl, ih hnodup, List.erase_cons_tail (by simpa using hw),
        List.map_cons]

end Room

namespace Turn

variable {e : Entry ω} {vs : List (Visit ω)}

/-- Nobody is in a room twice. -/
theorem nodup (h : Turn p r e r') (hr : r.workers.Nodup) : r'.workers.Nodup := by
  cases h with
  | @arrive i ws u hu =>
    show (i.toList ++ (ws ++ [u])).Nodup
    rw [← List.append_assoc]
    refine List.nodup_append.2 ⟨hr, List.nodup_singleton u, ?_⟩
    rintro a ha b hb rfl
    exact hu (List.mem_singleton.1 hb ▸ ha)
  | enter => exact hr
  | leave => exact (List.nodup_cons.1 hr).2
  | giveUp => exact hr.sublist ((List.Sublist.refl _).append List.erase_sublist)
  | elsewhere | stranger => exact hr

/-- **One turn.**  If the visits that are not over are those of the room before, they are those of
the room afterwards. -/
theorem filter_note (h : Turn p r e r') (hr : r.workers.Nodup)
    (hvs : vs.filter Visit.isOpen = r.visits) :
    (visits.note p vs e).filter Visit.isOpen = r'.visits := by
  cases h with
  | @arrive i ws u hu =>
    rw [visits.note, if_pos rfl, List.filter_append, hvs]
    show _ ++ [Visit.waiting u] = _
    rw [Room.visits, Room.visits, List.map_append, List.append_assoc]
    rfl
  | elsewhere hp => rw [visits.note, if_neg hp, hvs]
  | @stranger _ e he =>
    rw [visits.note, Visit.filter_hear, hvs, Visit.map_hear, Room.filter_visits]
    exact fun v hv _ hve => he (hve ▸ Room.worker_mem hv)
  | @enter u ws =>
    have hout := (List.nodup_cons.1 hr).1
    have hself : (Visit.waiting u).hear (u, .enter) = .inside u := by
      simp [Visit.hear, Visit.waiting, Visit.inside, Visit.isOpen]
    rw [visits.note, Visit.filter_hear, hvs]
    show (List.map _ (Visit.waiting u :: ws.map .waiting)).filter _ = _
    rw [List.map_cons, hself, Room.hear_waiting hout]
    exact Room.filter_visits ⟨some u, ws⟩
  | @leave u ws how hhow =>
    have hout := (List.nodup_cons.1 hr).1
    have hself : ¬ ((Visit.inside u).hear (u, how)).isOpen = true := by
      simp [Visit.hear, Visit.inside, Visit.isOpen, hhow]
    rw [visits.note, Visit.filter_hear, hvs]
    show (List.map _ (Visit.inside u :: ws.map .waiting)).filter _ = _
    rw [List.map_cons, List.filter_cons_of_neg hself, Room.hear_waiting hout]
    exact Room.filter_visits ⟨none, ws⟩
  | @giveUp i ws u hu =>
    obtain ⟨-, hws, happart⟩ := List.nodup_append.1 hr
    have hinside : (i.toList.map Visit.inside).map (Visit.hear (u, .cancelled)) =
        i.toList.map .inside := by
      refine Visit.map_hear fun v hv _ hve => ?_
      obtain ⟨x, hx, rfl⟩ := List.mem_map.1 hv
      exact happart x hx u hu hve
    have hopen : (i.toList.map Visit.inside).filter Visit.isOpen = i.toList.map .inside := by
      refine List.filter_eq_self.2 fun v hv => ?_
      obtain ⟨x, -, rfl⟩ := List.mem_map.1 hv
      rfl
    rw [visits.note, Visit.filter_hear, hvs, Room.visits, List.map_append, List.filter_append,
      hinside, hopen, Room.filter_hear_waiting hws]
    rfl

end Turn

/-- Whoever arrived before a worker that has been inside is gone, and every visit that is over was a
stay inside or was cancelled. -/
structure Orderly (vs : List (Visit ω)) : Prop where
  inTurn : vs.Pairwise fun a b => b.entered = true → a.isOpen = false
  ended : ∀ v ∈ vs, ∀ how, v.ended = some how → v.entered = true ∨ how = .cancelled

namespace Orderly

variable {vs : List (Visit ω)} {u : ω}

omit [DecidableEq ω] in
/-- Before the first of the visits that are not over, all are. -/
theorem before_first {v : Visit ω} {rest : List (Visit ω)} (h : vs.filter Visit.isOpen = v :: rest)
    (hv : ∀ x ∈ rest, x.worker ≠ v.worker) :
    vs.Pairwise fun a b => b.isOpen = true → b.worker = v.worker → a.isOpen = false := by
  induction vs with
  | nil => exact .nil
  | cons x vs ih =>
    cases hx : x.isOpen with
    | false =>
      rw [List.filter_cons_of_neg (by rw [hx]; exact Bool.false_ne_true)] at h
      exact .cons (fun _ _ _ _ => hx) (ih h)
    | true =>
      -- this is the first one, and its worker has no other
      rw [List.filter_cons_of_pos hx] at h
      obtain ⟨rfl, rfl⟩ := List.cons.inj h
      refine List.Pairwise.cons ?_ (List.pairwise_of_forall_mem_list ?_)
      · exact fun b hb hopen hworker => absurd hworker (hv b (List.mem_filter.2 ⟨hb, hopen⟩))
      · exact fun _ _ b hb hopen hworker => absurd hworker (hv b (List.mem_filter.2 ⟨hb, hopen⟩))

/-- The first of those who wait enters. -/
theorem enter (h : Orderly vs) {rest : List (Visit ω)}
    (hvs : vs.filter Visit.isOpen = .waiting u :: rest) (hu : ∀ x ∈ rest, x.worker ≠ u) :
    Orderly (vs.map (Visit.hear (u, .enter))) := by
  constructor
  case inTurn =>
    rw [List.pairwise_map]
    refine (h.inTurn.and (before_first hvs hu)).imp fun {a b} hab hentered => ?_
    rw [Visit.isOpen, Visit.ended_hear_enter, ← Visit.isOpen]
    rcases Visit.entered_hear_enter hentered with hold | ⟨hopen, hworker⟩
    · exact hab.1 hold
    · exact hab.2 hopen hworker
  case ended =>
    intro v' hv' how hended
    obtain ⟨v, hv, rfl⟩ := List.mem_map.1 hv'
    rw [Visit.ended_hear_enter] at hended
    refine (h.ended v hv how hended).imp_left fun hentered => ?_
    unfold Visit.hear
    split
    · rfl
    · exact hentered

/-- A visit ends. -/
theorem finish (h : Orderly vs) {how : Happening} (hhow : how ≠ .enter)
    (hu : ∀ v ∈ vs, v.isOpen = true → v.worker = u → v.entered = true ∨ how = .cancelled) :
    Orderly (vs.map (Visit.hear (u, how))) := by
  constructor
  case inTurn =>
    rw [List.pairwise_map]
    refine h.inTurn.imp fun {a b} hab hentered => ?_
    rw [Visit.entered_hear hhow] at hentered
    have hover := hab hentered
    rwa [Visit.hear_of_over hover]
  case ended =>
    intro v' hv' how' hended
    obtain ⟨v, hv, rfl⟩ := List.mem_map.1 hv'
    rw [Visit.entered_hear hhow]
    rcases Visit.ended_hear hhow hended with hold | ⟨hopen, hworker, rfl⟩
    · exact h.ended v hv how' hold
    · exact hu v hv hopen hworker

end Orderly

theorem Turn.orderly {e : Entry ω} {vs : List (Visit ω)} (h : Turn p r e r') (hr : r.workers.Nodup)
    (hvs : vs.filter Visit.isOpen = r.visits) (ho : Orderly vs) : Orderly (visits.note p vs e) := by
  have hopen {v : Visit ω} (hv : v ∈ vs) (ho : v.isOpen = true) : v ∈ r.visits :=
    hvs ▸ List.mem_filter.2 ⟨hv, ho⟩
  cases h with
  | @arrive i ws u hu =>
    rw [visits.note, if_pos rfl]
    refine ⟨List.pairwise_append.2 ⟨ho.inTurn, List.pairwise_singleton _ _, ?_⟩, fun v hv => ?_⟩
    · rintro a - b hb hentered
      rw [List.mem_singleton.1 hb] at hentered
      cases hentered
    · rcases List.mem_append.1 hv with hv | hv
      · exact ho.ended v hv
      · rw [List.mem_singleton.1 hv]
        exact fun _ hended => nomatch hended
  | @enter u ws =>
    refine ho.enter hvs fun x hx hxu => (List.nodup_cons.1 hr).1 ?_
    obtain ⟨w, hw, rfl⟩ := List.mem_map.1 hx
    exact hxu ▸ hw
  | @leave u ws how hhow =>
    refine ho.finish hhow fun v hv hvo hworker => .inl ?_
    rcases Room.mem_visits.1 (hopen hv hvo) with ⟨x, hx, rfl⟩ | ⟨x, hx, rfl⟩
    · rfl
    · exact absurd (hworker ▸ hx) (List.nodup_cons.1 hr).1
  | @giveUp i ws u hu => exact ho.finish (fun h => nomatch h) fun _ _ _ _ => .inr rfl
  | elsewhere hp =>
    rw [visits.note, if_neg hp]
    exact ho
  | @stranger _ e he =>
    rw [visits.note, Visit.map_hear]
    · exact ho
    · exact fun v hv hvo hworker => he (hworker ▸ Room.worker_mem (hopen hv hvo))

/-- **Visits in order.**  Whatever turns are taken, the visits stay in order, and those that are not
over are the visits of the room. -/
theorem Turns.orderly (h : Turns p r J r') (hr : r.workers.Nodup) {vs : List (Visit ω)}
    (hvs : vs.filter Visit.isOpen = r.visits) (ho : Orderly vs) :
    Orderly (J.foldl (visits.note p) vs) ∧
      (J.foldl (visits.note p) vs).filter Visit.isOpen = r'.visits := by
  induction h generalizing vs with
  | nil => exact ⟨ho, hvs⟩
  | cons hturn _ ih =>
    exact ih (hturn.nodup hr) (hturn.filter_note hr hvs) (hturn.orderly hr hvs ho)

namespace Orderly

omit [DecidableEq ω]

variable {vs : List (Visit ω)}

/-- No two are inside. -/
theorem alone (h : Orderly vs) : (vs.filter Visit.isInside).length ≤ 1 := by
  have hpairs : (vs.filter Visit.isInside).Pairwise fun _ _ => False := by
    refine List.pairwise_filter.2 (h.inTurn.imp fun {a b} hab ha hb => ?_)
    have hopen := (Bool.and_eq_true_iff.1 ha).2
    have hentered := (Bool.and_eq_true_iff.1 hb).1
    rw [hab hentered] at hopen
    cases hopen
  match hinside : vs.filter Visit.isInside with
  | [] => exact Nat.zero_le 1
  | [_] => exact Nat.le_refl 1
  | a :: b :: rest =>
    rw [hinside] at hpairs
    exact ((List.pairwise_cons.1 hpairs).1 b List.mem_cons_self).elim

/-- Only those who are cancelled before they enter are passed over. -/
theorem passed_over (h : Orderly vs) : vs.Pairwise fun a b => b.entered = true →
    a.isOpen = false ∧ (a.entered = true ∨ a.ended = some .cancelled) := by
  refine h.inTurn.imp_of_mem fun {a b} ha _ hab hentered => ?_
  have hover := hab hentered
  refine ⟨hover, ?_⟩
  cases hended : a.ended with
  | none =>
    rw [Visit.isOpen, hended] at hover
    cases hover
  | some how => exact (h.ended a ha how hended).imp_right (congrArg some)

end Orderly

/-! ### Ends of visits -/

theorem Workers.journal_append (w : Workers ω) (steps steps' : List (Step ω)) :
    w.journal (steps ++ steps') = w.journal steps ++ (w.run steps).journal steps' := by
  induction steps generalizing w with
  | nil => rfl
  | cons s rest ih =>
    rw [List.cons_append, journal, journal, ih, List.append_assoc]
    rfl

/-- Each visit hears of all that happens. -/
theorem visits.getElem?_foldl_note (vs : List (Visit ω)) (events : List (Event ω)) (i : Nat) :
    ((events.map .event).foldl (visits.note p) vs)[i]? =
      vs[i]?.map fun v => events.foldl (fun v e => v.hear e) v := by
  induction events generalizing vs with
  | nil => simp
  | cons e events ih =>
    rw [List.map_cons, List.foldl_cons, ih, visits.note, List.getElem?_map, Option.map_map]
    rfl

/-- What a visit hears of first can end it, and then it hears of nothing more. -/
theorem Visit.foldl_hear {v : Visit ω} (hv : v.isOpen = true) {how : Happening}
    (hhow : how ≠ .enter) (events : List (Event ω)) :
    ((v.worker, how) :: events).foldl (fun v e => v.hear e) v = { v with ended := some how } := by
  have hfirst : v.hear (v.worker, how) = { v with ended := some how } := by
    rw [hear, if_pos ⟨rfl, hv⟩, if_neg hhow]
  rw [List.foldl_cons, hfirst]
  induction events with
  | nil => rfl
  | cons e events ih =>
    rw [List.foldl_cons, hear_of_over rfl]
    exact ih

/-- A step in which something happens to a worker first ends its visit, if it is not over. -/
theorem Workers.ends_visit (steps : List (Step ω)) {s : Step ω} {how : Happening}
    (hhow : how ≠ .enter) {i : Nat} {v : Visit ω}
    (hv : (visits p ((empty : Workers ω).journal steps))[i]? = some v) (hopen : v.isOpen = true)
    (harrivals : ∀ w : Workers ω, w.arrivals s = []) {events : List (Event ω)}
    (hevents : (((empty : Workers ω).run steps).step s).2 = (v.worker, how) :: events) :
    (visits p ((empty : Workers ω).journal (steps ++ [s])))[i]? =
      some { v with ended := some how } := by
  rw [journal_append, journal, journal, List.append_nil, entries, harrivals, List.nil_append,
    hevents, visits, List.foldl_append, ← visits, visits.getElem?_foldl_note, hv, Option.map_some,
    Visit.foldl_hear hopen hhow]

namespace Workers.Shows

variable {w : Workers ω} {lines : Uuid → Line ω} {u : ω}

/-- The worker inside does what it is ordered. -/
theorem events_of_order (h : w.Shows lines) (hu : (lines p).workers.head? = some u)
    (order : Order) : ∃ events, (w.step (.order u order)).2 = (u, order.happening) :: events := by
  have hmem : u ∈ (lines p).workers := List.mem_of_mem_head? hu
  have hstep := (h.step (s := .order u order) hmem).2
  rw [Line.act, if_pos hu, Line.depart, if_pos hu] at hstep
  exact ⟨_, hstep⟩

/-- A worker that is there can be cancelled. -/
theorem events_of_cancel (h : w.Shows lines) (hu : u ∈ (lines p).workers) :
    ∃ events, (w.step (.cancel u)).2 = (u, .cancelled) :: events := by
  have hdepart : ∃ events, ((lines p).depart u .cancelled).2 = (u, .cancelled) :: events := by
    unfold Line.depart
    split
    · exact ⟨_, rfl⟩
    · exact ⟨[], rfl⟩
  obtain ⟨events, hevents⟩ := hdepart
  exact ⟨events, (h.step (s := .cancel u) hu).2.trans hevents⟩

/-- A visit that is not over ends with an order to the worker inside, and with a cancellation. -/
theorem visit_ends {steps : List (Step ω)} (h : ((empty : Workers ω).run steps).Shows lines)
    (hpresent : (visits p ((empty : Workers ω).journal steps)).filter Visit.isOpen =
      (lines p).room.visits) {i : Nat} {v : Visit ω}
    (hv : (visits p ((empty : Workers ω).journal steps))[i]? = some v) (hopen : v.isOpen = true) :
    (∀ order, v.entered = true →
      (visits p ((empty : Workers ω).journal (steps ++ [.order v.worker order])))[i]? =
        some { v with ended := some order.happening }) ∧
      (visits p ((empty : Workers ω).journal (steps ++ [.cancel v.worker])))[i]? =
        some { v with ended := some .cancelled } := by
  have hmem : v ∈ (lines p).room.visits := by
    rw [← hpresent]
    exact List.mem_filter.2 ⟨List.mem_of_getElem? hv, hopen⟩
  constructor
  · intro order hentered
    have hhead : (lines p).workers.head? = some v.worker := by
      rcases Room.mem_visits.1 hmem with ⟨u, hu, rfl⟩ | ⟨u, -, rfl⟩
      · exact hu
      · cases hentered
    obtain ⟨events, hevents⟩ := h.events_of_order hhead order
    exact ends_visit steps order.happening_ne_enter hv hopen (fun _ => rfl) hevents
  · have hworker := Room.worker_mem hmem
    rw [Line.workers_room] at hworker
    have hne : Happening.cancelled ≠ .enter := by decide
    obtain ⟨events, hevents⟩ := h.events_of_cancel hworker
    exact ends_visit steps hne hv hopen (fun _ => rfl) hevents

end Workers.Shows

/-- **At rest.**  A project is locked if its line is not empty; then the first worker is inside, the
others wait, and no order waits for the one inside. -/
theorem Workers.Shows.at_rest {w : Workers ω} {lines : Uuid → Line ω} (h : w.Shows lines)
    (hsettled : (lines p).Settled) :
    (w.registry.isLocked p = true ↔ (lines p).room.visits ≠ []) ∧
      ∀ v rest, (lines p).room.visits = v :: rest →
        v.entered = true ∧ (∀ x ∈ rest, x.entered = false) ∧
          w.registry.isInside v.worker = true ∧ w.orders.lookup v.worker = none := by
  rw [h.registry.isLocked_iff]
  cases hline : lines p with
  | nil => exact ⟨iff_of_false (fun h => h rfl) (fun h => h rfl), fun _ _ h => nomatch h⟩
  | cons x waiting =>
    refine ⟨iff_of_true (List.cons_ne_nil _ _) (List.cons_ne_nil _ _), ?_⟩
    rintro _ _ ⟨⟩
    have hmem : x ∈ lines p := hline ▸ List.mem_cons_self
    have hhead : (lines p).workers.head? = some x.1 := by
      rw [hline]
      rfl
    refine ⟨rfl, fun y hy => ?_, ?_, ?_⟩
    · obtain ⟨u, -, rfl⟩ := List.mem_map.1 hy
      rfl
    · exact (h.registry.isInside_iff (List.mem_map_of_mem hmem)).2 hhead
    · exact (h.orders p x hmem).trans (hsettled x (by rw [hline, List.head?_cons]))

/-- **Turns.**  Whatever is done to workers, of the visits to a project, seen at any moment, one at
most is inside, nobody enters before those who came earlier are gone, who have been inside unless
they were cancelled, and nobody finishes or fails without having been inside.  After all that has
been done has had its effect, the project is locked if some visit is not over, and then the first of
these is inside, all others wait, and no order waits for the one inside.  A visit that is not over
ends with the next step if that is an order to the worker inside or a cancellation. -/
theorem Workers.turns_taken (steps : List (Step ω)) (p : Uuid) :
    let journal := (empty : Workers ω).journal steps
    let w := (empty : Workers ω).run steps
    let present := (visits p journal).filter Visit.isOpen
    (∀ J, J <+: journal →
      ((visits p J).filter Visit.isInside).length ≤ 1 ∧
        ((visits p J).Pairwise fun a b => b.entered = true →
          a.isOpen = false ∧ (a.entered = true ∨ a.ended = some .cancelled)) ∧
        ∀ v ∈ visits p J, v.ended = some .exit ∨ v.ended = some .failed → v.entered = true) ∧
      (w.registry.isLocked p = true ↔ present ≠ []) ∧
      (∀ v rest, present = v :: rest → v.entered = true ∧ (∀ x ∈ rest, x.entered = false) ∧
        w.registry.isInside v.worker = true ∧ w.orders.lookup v.worker = none) ∧
      ∀ (i : Nat) (v : Visit ω), (visits p journal)[i]? = some v → v.isOpen = true →
        (∀ order, v.entered = true →
          (visits p ((empty : Workers ω).journal (steps ++ [.order v.worker order])))[i]? =
            some { v with ended := some order.happening }) ∧
        (visits p ((empty : Workers ω).journal (steps ++ [.cancel v.worker])))[i]? =
          some { v with ended := some .cancelled } := by
  have hnone : ([] : List (Visit ω)).filter Visit.isOpen = (Line.room ([] : Line ω)).visits := rfl
  have hstart : Orderly ([] : List (Visit ω)) := ⟨.nil, fun _ hv => nomatch hv⟩
  obtain ⟨lines, hshows, hsettled, hturns⟩ :=
    shows_empty.turns_run (fun _ _ hx => nomatch hx) steps
  dsimp only
  refine ⟨fun J hJ => ?_, ?_⟩
  · obtain ⟨_, hJturns⟩ := (hturns p).beginning hJ
    have horderly := (hJturns.orderly List.nodup_nil hnone hstart).1
    refine ⟨horderly.alone, horderly.passed_over, fun v hv hended => ?_⟩
    rcases hended with hended | hended
    · exact (horderly.ended v hv _ hended).resolve_right fun h => nomatch h
    · exact (horderly.ended v hv _ hended).resolve_right fun h => nomatch h
  · -- the visits that are not over are those of the line
    have hpresent : (visits p ((empty : Workers ω).journal steps)).filter Visit.isOpen =
        (lines p).room.visits := ((hturns p).orderly List.nodup_nil hnone hstart).2
    obtain ⟨hlocked, hfirst⟩ := hshows.at_rest (hsettled p)
    rw [hpresent]
    exact ⟨hlocked, hfirst, fun i v hv hopen => hshows.visit_ends hpresent hv hopen⟩

/-- Of three workers the second one is cancelled while it waits, and the third one is told to finish
before it can enter; it enters when the first one fails, and is gone at once. -/
example : visits ⟨7#128⟩ ((Workers.empty : Workers Nat).journal
    [.start 1 ⟨7#128⟩, .start 2 ⟨7#128⟩, .start 3 ⟨7#128⟩, .cancel 2, .order 3 .finish,
      .order 1 .fail]) =
    [⟨1, true, some .failed⟩, ⟨2, false, some .cancelled⟩, ⟨3, true, some .exit⟩] := by
  decide

end Turns

end Agenda.Lock
