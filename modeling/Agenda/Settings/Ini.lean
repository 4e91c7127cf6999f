import Agenda.Text.Blank
import Agenda.Text.LetterCase

/-!
# Settings files

A settings file is made of lines.  `[name]` begins a section; `key = value` or `key : value` is an
option of the section, its key in any letter case; a line that is indented further than the line
of its option continues the value.  Lines whose first character is `#` or `;` are remarks.  The
section `DEFAULT` is there from the start, may be taken up again, and holds what other sections do
not say.

A file can be faulty.  A line outside any section, a section that comes twice and an option that
comes twice in its section end the reading; a line that is no option, or has an empty key, only
makes the file faulty.  Either way what was read before stays, but values are put together from
their lines at the end of the file only: when the reading ends before, there are options whose
values cannot be used.
-/

namespace Agenda.Settings

/-- A section as it is read: the lines of each option's value, the last line first. -/
structure OpenSection where
  name : String
  options : List (String × List String)
  deriving DecidableEq, Repr

/-- How far a file has been read. -/
structure Reader where
  sections : List OpenSection
  /-- The section of the next options. -/
  current : Option String
  /-- The option whose value the next line may continue; empty if there is none. -/
  key : String
  /-- How far the line that began last is indented. -/
  indent : Nat
  faulty : Bool
  /-- The reading ended before the end of the file. -/
  brokenOff : Bool
  deriving DecidableEq, Repr

/-- The name of the section that is always there. -/
def defaultSection : String := "DEFAULT"

namespace Reader

def start : Reader := ⟨[⟨defaultSection, []⟩], none, "", 0, false, false⟩

/-- The options of a section as read so far. -/
def optionsOf (r : Reader) (name : String) : List (String × List String) :=
  match r.sections.find? (·.name = name) with
  | some s => s.options
  | none => []

/-- Changes the options of the current section. -/
def change (r : Reader)
    (f : List (String × List String) → List (String × List String)) : Reader :=
  { r with
    sections := r.sections.map fun s =>
      if some s.name = r.current then { s with options := f s.options } else s }

/-- Adds a line to the value that is being read. -/
def addLine (r : Reader) (line : String) : Reader :=
  r.change fun options =>
    options.map fun (key, lines) => if key = r.key then (key, line :: lines) else (key, lines)

/-- A value is being read, so a line may continue it. -/
def inValue (r : Reader) : Bool := r.current.isSome && r.key ≠ ""

/-- The name in a section header: what stands between the first character, a bracket, and the last
closing bracket. -/
def header? : List Char → Option String
  | '[' :: rest =>
    match rest.reverse.dropWhile (· != ']') with
    | _ :: c :: name => some (String.ofList ((c :: name).reverse))
    | _ => none
  | _ => none

/-- The key and the value of an option line. -/
def option? (cs : List Char) : Option (String × String) :=
  let isDelimiter (c : Char) := c == '=' || c == ':'
  match cs.dropWhile fun c => !isDelimiter c with
  | [] => none
  | _ :: value =>
    let key := Text.trim (String.ofList (cs.takeWhile fun c => !isDelimiter c))
    some (Text.toLower key, Text.trim (String.ofList value))

def beginSection (r : Reader) (name : String) : Option Reader :=
  let begun := { r with current := some name, key := "" }
  if name = defaultSection then some begun
  else if r.sections.any (·.name = name) then none
  else some { begun with sections := r.sections ++ [⟨name, []⟩] }

/-- Begins an option in the current section. -/
def beginOption (r : Reader) (into key value : String) : Option Reader :=
  if (r.optionsOf into).any (·.1 = key) then none
  else
    let r := r.change (· ++ [(key, [value])])
    some { r with key := key, faulty := r.faulty || key = "" }

/-- Reads a line that continues nothing; `none` ends the reading. -/
def beginLine (r : Reader) (cs : List Char) : Option Reader :=
  match header? cs, r.current with
  | some name, _ => r.beginSection name
  | none, none => none
  | none, some into =>
    match option? cs with
    | some (key, value) => r.beginOption into key value
    | none => some { r with faulty := true }

def line (r : Reader) (cs : List Char) : Option Reader :=
  let indent := (cs.takeWhile Text.isBlank).length
  match Text.stripEnds Text.isBlank cs with
  | [] => some (if r.inValue then r.addLine "" else r)
  | '#' :: _ => some r
  | ';' :: _ => some r
  | body =>
    if r.inValue && r.indent < indent then some (r.addLine (String.ofList body))
    else { r with indent := indent }.beginLine body

/-- Reads lines up to the end, or up to the line that ends the reading. -/
def lines (r : Reader) : List (List Char) → Reader
  | [] => r
  | cs :: rest =>
    match r.line cs with
    | some r => r.lines rest
    | none => { r with faulty := true, brokenOff := true }

end Reader

/-! ### Files -/

/-- A section: its options in order. -/
structure Section where
  name : String
  options : List (String × String)
  deriving DecidableEq, Repr

/-- What was read from a settings file. -/
structure Ini where
  /-- The sections in order, the section that is always there in front. -/
  sections : List Section
  /-- Something in the file could not be read. -/
  faulty : Bool
  /-- The file was not read to its end.  The lines of values are joined at the end of a file only,
  so its values cannot be used.  This is the parser of release 3.11; from release 3.11.10 on it
  joins them in any case, and what was read before the end counts. -/
  brokenOff : Bool
  deriving DecidableEq, Repr

namespace Ini

/-- The lines of a text.  A line ends with a line feed, a carriage return, or both. -/
def splitLines : List Char → List (List Char)
  | [] => [[]]
  | '\r' :: '\n' :: rest => [] :: splitLines rest
  | '\r' :: rest => [] :: splitLines rest
  | '\n' :: rest => [] :: splitLines rest
  | c :: rest =>
    match splitLines rest with
    | [] => [[c]]
    | first :: others => (c :: first) :: others

/-- A value from its lines, the last line first; blanks at its end are cut off. -/
def joinLines (lines : List String) : String :=
  let joined := "\n".intercalate lines.reverse
  String.ofList ((joined.toList.reverse.dropWhile Text.isBlank).reverse)

def empty : Ini := ⟨[⟨defaultSection, []⟩], false, false⟩

def ofText (s : String) : Ini :=
  let r := Reader.start.lines (splitLines s.toList)
  { sections := r.sections.map fun d =>
      ⟨d.name, d.options.map fun (key, lines) => (key, joinLines lines)⟩
    faulty := r.faulty
    brokenOff := r.brokenOff }

/-- The options of a section, if it is there. -/
def options? (ini : Ini) (name : String) : Option (List (String × String)) :=
  (ini.sections.find? (·.name = name)).map (·.options)

/-- The names of the sections, without the one that is always there. -/
def sectionNames (ini : Ini) : List String :=
  (ini.sections.map (·.name)).filter (· != defaultSection)

/-- The value of an option as it stands in the file: in its section, or else in the section that is
always there.  A section that is missing has no options at all. -/
def raw? (ini : Ini) (name key : String) : Option String := do
  let own ← ini.options? name
  (own.lookup key).or (((ini.options? defaultSection).getD []).lookup key)

end Ini

end Agenda.Settings
