import Agenda.Program.Basic

/-!
# Injected faults

A fault makes one call of a program fail: the call of a given kind that comes as the given number
among its kind.  A call that the store makes of itself to answer another call counts as well, and
its failure is the reply to the other call.  Injecting a fault turns a program into another
program, in which the call that is struck is not made; what the program does about the failure is
its own affair.
-/

namespace Agenda

/-- The `number`-th call of a kind, counted from 1, fails. -/
structure Fault where
  method : Store.Method
  number : Nat
  failure : Failure

/-- The fault that is still to come, seen from behind a call of a kind; `none` if it strikes that
call. -/
def Fault.past? (fault : Fault) (method : Store.Method) : Option Fault :=
  if fault.method ≠ method then some fault
  else if fault.number = 1 then none
  else some { fault with number := fault.number - 1 }

namespace Program

/-- The program with a fault in it.  Its result is joined by the fault that is left, for a program
that follows. -/
def inject {α : Type} : Option Fault → Program α → Program (α × Option Fault)
  | fault, .done result => .done (result.map (·, fault))
  | fault, .note entry next => .note entry (next.inject fault)
  | fault, .size next => .size fun n => (next n).inject fault
  | fault, .further request next => .further request fun method => (next method).inject fault
  | none, .call request next => .call request fun reply => (next reply).inject none
  | some fault, .call request next =>
    .further request fun further =>
      match (fault.past? request.method).bind fun left => further.elim (some left) left.past? with
      | none => (next (.error fault.failure)).inject none
      | some left => .call request fun reply => (next reply).inject (some left)

end Program

end Agenda
