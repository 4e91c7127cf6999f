import Agenda.CommandLine.Grammar

/-!
# Reading command lines

Marked words are read from left to right.  Flags take effect where they stand; values fill the
slots of the grammar in order.  A call for help ends the reading at once, and so does a word that
cannot be what it has to be.  A word that is only not understood does not: the reading goes on,
and a call for help further on still counts.
-/

namespace Agenda.CommandLine

/-- How a command line ends that is not carried out. -/
inductive Exit
  /-- An explanation was asked for. -/
  | help
  /-- The command line is wrong. -/
  | misuse
  deriving DecidableEq, Repr

/-- The exit code: help succeeds. -/
def Exit.code : Exit → Nat
  | .help => 0
  | .misuse => 2

/-- What has been read so far: the arguments, the slots still to be filled, and whether every word
was understood. -/
structure Reading where
  arguments : Arguments
  pending : List Slot
  understood : Bool
  deriving Repr

namespace Reading

/-- How a call for help ends when a text is attached to it: each letter must be the call for help
over again. -/
def helpWith (text : List Char) : Exit :=
  if !text.isEmpty && text.all (· == 'h') then .help else .misuse

/-- The arguments with a text in a slot; a text that does not fit is wrong. -/
def put (a : Arguments) (slot : Slot) (text : String) : Except Exit Arguments :=
  match a.put slot text with
  | some a => .ok a
  | none => .error .misuse

/-- What a flag does with the text attached to it.  Only a flag of one letter can call for help
with a text attached. -/
def attach (f : Flag) (text : List Char) (a : Arguments) : Except Exit Arguments :=
  match f.meaning with
  | .help => .error (if f.word.length = 2 then helpWith text else .misuse)
  | .value slot =>
    if text = ['-', '-'] then .ok (a.putNothing slot) else put a slot (String.ofList text)

/-- The next value.  There may be no slot left for it. -/
def value (r : Reading) (text : String) : Except Exit Reading :=
  match r.pending with
  | [] => .ok { r with understood := false }
  | slot :: rest =>
    (put r.arguments slot text).map fun a => { r with arguments := a, pending := rest }

/-- The next value, from a word that may be a second divider: such a word leaves its slot with
nothing in it. -/
def plainValue (r : Reading) (text : String) : Except Exit Reading :=
  match r.pending with
  | slot :: rest =>
    if text = "--" then
      .ok { r with arguments := r.arguments.putNothing slot, pending := rest }
    else r.value text
  | [] => r.value text

/-- Reads marked words.  A divider goes with the value before it or behind it. -/
def go : List Marked → Reading → Except Exit Reading
  | [], r => .ok r
  | (_, .stranger) :: rest, r => go rest { r with understood := false }
  | (_, .flag f (some t)) :: rest, r => do
    let a ← attach f t r.arguments
    go rest { r with arguments := a }
  | (_, .flag ⟨_, .help⟩ none) :: _, _ => .error .help
  | (_, .flag ⟨_, .value slot⟩ none) :: (text, .value) :: rest, r => do
    let a ← put r.arguments slot text
    go rest { r with arguments := a }
  | (_, .flag ⟨_, .value _⟩ none) :: _, _ => .error .misuse
  | (_, .divider) :: (text, .value) :: rest, r => do go rest (← r.value text)
  | (_, .divider) :: rest, r => go rest { r with understood := false }
  | (text, .value) :: (_, .divider) :: rest, r => do go rest (← r.value text)
  | (text, .value) :: rest, r => do go rest (← r.plainValue text)

/-- Reads the words of a command, starting from arguments that are known already.  Every slot has
to be filled. -/
def ofWords (g : Grammar) (a : Arguments) (words : List String) : Except Exit Reading :=
  match g.markAll words with
  | none => .error .misuse
  | some marked => do
    let r ← go marked ⟨a, g.slots, true⟩
    if r.pending.isEmpty then .ok r else .error .misuse

/-- Reads the words up to the name of a command: the arguments, whether all words were understood,
and the name and the words behind it. -/
def leading : List Marked → Arguments → Bool → Except Exit (Arguments × Bool × String × List String)
  | (_, .stranger) :: rest, a, _ => leading rest a false
  | (_, .flag f (some t)) :: rest, a, understood => do leading rest (← attach f t a) understood
  | (_, .flag ⟨_, .help⟩ none) :: _, _, _ => .error .help
  | (_, .flag ⟨_, .value slot⟩ none) :: (text, .value) :: rest, a, understood => do
    leading rest (← put a slot text) understood
  | (text, .value) :: rest, a, understood => .ok (a, understood, text, rest.map (·.1))
  | _, _, _ => .error .misuse

end Reading

end Agenda.CommandLine
