import Agenda.Instant
import Agenda.Uuid

/-!
# Occasions

What the surroundings supply to one operation: the time, which stands still while the operation
runs, and the identifier that a new record gets.
-/

namespace Agenda

/-- The time of an operation and the identifier for what it creates. -/
structure Occasion where
  now : Instant
  freshId : Uuid
  deriving DecidableEq, Repr, Inhabited

end Agenda
