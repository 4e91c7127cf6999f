import Agenda.Text.Quoted

/-!
# Scalars

The plain values that stand where a word is expected: a text, a truth value, a whole number, or
nothing at all.  `word` is how such a value reads as a word, `shown` how a message shows it.
-/

namespace Agenda

/-- A plain value. -/
inductive Scalar
  | absent
  | flag (b : Bool)
  | whole (n : Int)
  | text (t : Text)
  deriving DecidableEq, Repr, Inhabited

namespace Scalar

/-- The word for a truth value. -/
def flagWord (b : Bool) : String := if b then "True" else "False"

/-- The value as a word. -/
def word : Scalar → Text
  | .absent => "None"
  | .flag b => flagWord b
  | .whole n => toString n
  | .text t => t

/-- The value as a message shows it: texts are quoted, all else stands bare. -/
def shown : Scalar → String
  | .absent => "None"
  | .flag b => flagWord b
  | .whole n => toString n
  | .text t => t.quoted

end Scalar

end Agenda
