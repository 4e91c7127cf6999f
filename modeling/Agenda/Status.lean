import Agenda.Problem
import Agenda.Text.LetterCase
import Agenda.Text.Blank

/-!
# Status

A task is pending or completed.  `ofText?` is the strict reading of the two status words,
`read` the reading of a word that somebody typed: blanks at the ends and letter case do not count.
-/

namespace Agenda

/-- The completion state of a task. -/
inductive Status
  | pending
  | completed
  deriving DecidableEq, Repr, Inhabited

namespace Status

def text : Status → String
  | .pending => "pending"
  | .completed => "completed"

/-- The status with exactly this word. -/
def ofText? (s : String) : Option Status :=
  if s = "pending" then some .pending
  else if s = "completed" then some .completed
  else none

/-- The status that a typed word names.  No trimming and no letter case turns a word with a
surrogate into a status word. -/
def read (word : Scalar) : Except Problem Status :=
  match word.word.string?.bind fun s => ofText? (Text.toLower (Text.trim s)) with
  | some status => .ok status
  | none => .error (.of (.unknownStatus word))

/-- Each status is read back from its word. -/
@[simp] theorem ofText?_text (s : Status) : ofText? s.text = some s := by
  cases s <;> rfl

end Status

end Agenda
