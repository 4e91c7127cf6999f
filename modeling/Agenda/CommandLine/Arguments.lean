import Agenda.Text.Numeral
import Agenda.Value

/-!
# Arguments

What the words of a command line say, once they are understood.  A `Slot` is something that an
argument can be about; `Arguments` holds what was said about each slot.  Putting a text into a
slot reads it, so an argument that is there at all is well formed, unless it is hollow: the word
`--` leaves the slot that it is given to with nothing in it.
-/

namespace Agenda.CommandLine

/-- What an argument can be about. -/
inductive Slot
  | databaseUrl
  | name
  | project
  | parent
  | task
  | place
  deriving DecidableEq, Repr

def Slot.word : Slot → String
  | .databaseUrl => "database_url"
  | .name => "name"
  | .project => "project"
  | .parent => "parent"
  | .task => "task_id"
  | .place => "order"

/-- What an argument holds. -/
inductive Argument (α : Type)
  | value (a : α)
  /-- The argument is there, and there is nothing in it. -/
  | hollow
  deriving DecidableEq, Repr

/-- A hollow argument as a value. -/
def Argument.nothing : Value := .list []

def Argument.shown {α : Type} (text : α → Text) : Argument α → Text
  | .value a => text a
  | .hollow => nothing.shown

/-- What was said about each slot. -/
structure Arguments where
  /-- The address of the database; an empty one is as good as none. -/
  databaseUrl : Option String
  name : Option (Argument Text)
  project : Option Text
  parent : Option (Argument Uuid)
  task : Option Uuid
  place : Option (Argument Int)
  deriving DecidableEq, Repr, Inhabited

namespace Arguments

def empty : Arguments := ⟨none, none, none, none, none, none⟩

/-- The arguments with a text in a slot, unless the slot cannot hold the text.  A later text takes
the place of an earlier one. -/
def put (a : Arguments) (slot : Slot) (text : String) : Option Arguments :=
  match slot with
  | .databaseUrl => some { a with databaseUrl := some text }
  | .name => some { a with name := some (.value text) }
  | .project => some { a with project := some text }
  | .parent => (Uuid.read? text).map fun id => { a with parent := some (.value id) }
  | .task => (Uuid.read? text).map fun id => { a with task := some id }
  | .place =>
    match Text.readInteger text with
    | .ok n => some { a with place := some (.value n) }
    | .error _ => none

/-- The arguments with a slot that is filled by nothing.  A slot that is the first among the values
of a command is never left so. -/
def putNothing (a : Arguments) : Slot → Arguments
  | .databaseUrl => { a with databaseUrl := some "" }
  | .name => { a with name := some .hollow }
  | .parent => { a with parent := some .hollow }
  | .place => { a with place := some .hollow }
  | .project | .task => a

end Arguments

end Agenda.CommandLine
