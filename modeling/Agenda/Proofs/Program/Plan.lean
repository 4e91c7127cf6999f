import Agenda.Plan
import Agenda.Proofs.Program.Meets

/-!
# Plans carried out alone

With nobody else around, a plan is carried out as soon as it is made: `Plan.alone` joins both parts
to one program.  A program that was made a plan is then that program again (`alone_ofProgram`),
and putting an answer differently can be left to the end (`alone_map`).
-/

namespace Agenda.Plan

open Program

variable {α β σ : Type}

@[simp] theorem alone_ofProgram (p : Program α) : alone (ofProgram p) = p := by
  rw [alone, ofProgram, bind_assoc]
  exact Program.bind_pure p

@[simp] theorem alone_map (f : α → β) (p : Program (Plan α)) :
    alone (Plan.map f p) = f <$> alone p := by
  rw [map_eq_pure_bind, alone, Plan.map, bind_assoc]
  change _ = (p.bind rest).bind _
  rw [bind_assoc]
  refine congrArg p.bind (funext fun plan => ?_)
  cases plan <;> rfl

theorem alone_bind {β : Type} (p : Program β) (f : β → Program (Plan α)) :
    alone (p >>= f) = p >>= fun b => alone (f b) :=
  Program.bind_assoc p f rest

/-- Carrying out a plan is planning, and then the rest. -/
theorem meets_alone [Store.Backend σ] {now : Instant} {S : σ → Prop} {s : σ}
    {p : Program (Plan α)} {Q : Except Failure α → σ → Prop} :
    (alone p).Meets now S Q s ↔ p.Meets now S (Between now S rest Q) s :=
  meets_bind

end Agenda.Plan
