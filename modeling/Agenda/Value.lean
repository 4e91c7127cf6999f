import Agenda.Scalar
import Agenda.Uuid

/-!
# Values

What an outsider may hand in where a record or one of its fields is expected: a plain value, a
number with a point, an identifier, a list, or a record with named fields.  A message shows such a
value in one line, and of a long line only the two ends, so that no message grows with its input.
-/

namespace Agenda

inductive Value
  | plain (value : Scalar)
  | real (x : Float)
  | id (u : Uuid)
  | list (items : List Value)
  | record (fields : List (String × Value))
  deriving Inhabited

namespace Value

/-- The word for the kind of a value. -/
def kindWord : Value → String
  | .plain .absent => "NoneType"
  | .plain (.flag _) => "bool"
  | .plain (.whole _) => "int"
  | .plain (.text _) => "str"
  | .real _ => "float"
  | .id _ => "UUID"
  | .list _ => "list"
  | .record _ => "dict"

mutual

/-- A value on one line.  A number with a point is shown with six digits behind the point. -/
def shown : Value → String
  | .plain value => value.shown
  | .real x => toString x
  | .id u => s!"UUID({Text.quoted u.text})"
  | .list items => "[" ++ ", ".intercalate (itemsShown items) ++ "]"
  | .record fields => "\x7b" ++ ", ".intercalate (fieldsShown fields) ++ "\x7d"

/-- Values, each on one line. -/
def itemsShown : List Value → List String
  | [] => []
  | v :: vs => v.shown :: itemsShown vs

/-- Named values, each on one line. -/
def fieldsShown : List (String × Value) → List String
  | [] => []
  | (name, v) :: rest => s!"{Text.quoted name}: {v.shown}" :: fieldsShown rest

end

/-- The characters from the front that fit into a number of bytes. -/
def fitting : Nat → List Char → List Char
  | _, [] => []
  | room, c :: cs => if c.utf8Size ≤ room then c :: fitting (room - c.utf8Size) cs else []

/-- A line of more than 50 bytes without its middle. -/
def excerpt (line : String) : String :=
  if line.utf8ByteSize ≤ 50 then line
  else
    let cs := line.toList
    String.ofList (fitting 25 cs) ++ "..." ++ String.ofList (fitting 24 cs.reverse).reverse

end Value

end Agenda
