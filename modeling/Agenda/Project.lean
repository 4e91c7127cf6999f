import Agenda.Field
import Agenda.Instant
import Agenda.Uuid

/-!
# Projects

A project groups tasks.  It holds no list of them: each task names its project.
-/

namespace Agenda

/-- A named group of tasks. -/
structure Project where
  id : Uuid
  name : Text
  created : Instant
  deriving DecidableEq, Repr, Inhabited

def Project.errors (p : Project) : List Field.Error :=
  ((NameRule.project.refusal? p.name).map fun why =>
    Field.Error.at "name" why (.plain (.text p.name))).toList

end Agenda
