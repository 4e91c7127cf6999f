import Agenda.CommandLine.Arguments

/-!
# Grammars of command lines

A command knows some flags and takes some values in order.  Before anything is read, every word is
marked by what it looks like: a value, a flag of the grammar, or something that only looks like
a flag.  A flag may be cut short as long as no other flag begins the same way, and a text may be
attached to it.  Words that begin with a hyphen are values all the same if they are negative
numbers or hold a space, and behind the word `--` every word is a value.
-/

namespace Agenda.CommandLine

/-- What a flag asks for. -/
inductive Meaning
  /-- An explanation of the command instead of the command. -/
  | help
  /-- The text that follows goes into a slot. -/
  | value (slot : Slot)
  deriving DecidableEq, Repr

structure Flag where
  word : String
  meaning : Meaning
  deriving DecidableEq, Repr

def Flag.common : List Flag := [⟨"-h", .help⟩, ⟨"--help", .help⟩]

/-- The flags of a command, and the slots of its values in order. -/
structure Grammar where
  flags : List Flag
  slots : List Slot
  deriving DecidableEq, Repr

/-- What a word looks like. -/
inductive Mark
  | value
  /-- The word `--`, behind which all words are values. -/
  | divider
  /-- A flag, and the text attached to it by an equals sign or directly. -/
  | flag (flag : Flag) (attached : Option (List Char))
  /-- A word with the looks of a flag that the grammar does not know. -/
  | stranger
  deriving DecidableEq, Repr

abbrev Marked := String × Mark

/-- A negative number: digits behind a hyphen, perhaps with a point before the last of them.  One
line feed may follow. -/
def isNegativeNumber (cs : List Char) : Bool :=
  let isDigit (c : Char) := (Text.decimalDigit? c).isSome
  let ends (digits : List Char) (rest : List Char) :=
    !digits.isEmpty && (rest == [] || rest == ['\n'])
  match cs with
  | '-' :: body =>
    let first := body.takeWhile isDigit
    match body.dropWhile isDigit with
    | '.' :: rest => ends (rest.takeWhile isDigit) (rest.dropWhile isDigit)
    | rest => ends first rest
  | _ => false

namespace Grammar

def flagNamed? (g : Grammar) (cs : List Char) : Option Flag :=
  g.flags.find? fun f => f.word.toList = cs

/-- The part of a word before an equals sign, and the text attached by it. -/
def splitEquals (cs : List Char) : List Char × Option (List Char) :=
  (cs.takeWhile (· != '='),
    match cs.dropWhile (· != '=') with
    | [] => none
    | _ :: text => some text)

/-- The flags that a word may stand for which is none of them in full.  Behind two hyphens the word
is cut short and may have a text attached.  Behind one it is cut short, or it is a flag of one
letter with a text right behind it. -/
def candidates (g : Grammar) (cs : List Char) : List Mark :=
  if cs.take 2 = ['-', '-'] then
    let (short, attached) := splitEquals cs
    (g.flags.filter fun f => short.isPrefixOf f.word.toList).map fun f => .flag f attached
  else
    g.flags.filterMap fun f =>
      if f.word.toList = cs.take 2 then some (.flag f (some (cs.drop 2)))
      else if cs.isPrefixOf f.word.toList then some (.flag f none)
      else none

/-- What a word looks like; `none` if it may stand for several flags. -/
def mark (g : Grammar) (word : String) : Option Mark :=
  let cs := word.toList
  let (short, attached) := splitEquals cs
  if cs.head? ≠ some '-' then some .value
  else
    match g.flagNamed? cs, attached.bind fun _ => g.flagNamed? short with
    | some f, _ => some (.flag f none)
    | none, some f => some (.flag f attached)
    | none, none =>
      if cs.length = 1 then some .value
      else
        match g.candidates cs with
        | [m] => some m
        | _ :: _ => none
        | [] =>
          if isNegativeNumber cs || cs.contains ' ' then some .value else some .stranger

/-- Marks all words; `none` if one of them may stand for several flags. -/
def markAll (g : Grammar) : List String → Option (List Marked)
  | [] => some []
  | word :: rest =>
    if word = "--" then some ((word, .divider) :: rest.map (·, .value))
    else do
      let m ← g.mark word
      let ms ← markAll g rest
      return (word, m) :: ms

end Grammar

end Agenda.CommandLine
