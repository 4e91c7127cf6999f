import Agenda.Connection.Dialect
import Agenda.Connection.Disk
import Agenda.Connection.Options

/-!
# Targets

Where the tables are that an address leads to: in memory, in a file, or nowhere.  Without a path,
or with the path `:memory:`, they are in memory.  A locator is a path too unless it begins with
`file:`; then it may hold escapes once more, and options that say how the file is opened.
-/

namespace Agenda

inductive Target
  | memory
  | file (place : Place) (access : Disk.Access)
  /-- The driver cannot open what it is told to. -/
  | nowhere (e : Failure)
  deriving DecidableEq, Repr

namespace Target

/-! ### Locators -/

def ofPath (d : Disk) (path : String) (access : Disk.Access) : Target :=
  if path = "" || path = ":memory:" then .memory
  else
    let p := Path.ofText path
    match d.placeAlong (d.start p) p.names with
    | .ok place => .file place access
    | .error _ => .nowhere Disk.cannotOpen

/-- The driver cannot open a database, as the message tells. -/
def failing (message : String) : Target := .nowhere (.inoperable message)

/-- What stands before an escape for the character zero. -/
def beforeZero : List Char → List Char
  | '%' :: '0' :: '0' :: _ => []
  | c :: rest => c :: beforeZero rest
  | [] => []

/-- A part of a locator with its escapes read. -/
def readPart (cs : List Char) : String := Text.Percent.decode (String.ofList (beforeZero cs))

/-- A target after an option of a locator. -/
def option (path : String) (d : Disk) (t : Target) (name value : String) : Target :=
  match t, name with
  | .nowhere e, _ => .nowhere e
  | t, "cache" =>
    if value = "shared" || value = "private" then t else failing s!"no such cache mode: {value}"
  | _, "mode" =>
    match value with
    | "ro" => ofPath d path .read
    | "rw" => ofPath d path .write
    | "rwc" => ofPath d path .create
    | "memory" => .memory
    | _ => failing s!"no such access mode: {value}"
  | t, "vfs" =>
    if ["unix", "unix-excl", "unix-dotfile", "unix-none"].contains value then t
    else failing s!"no such vfs: {value}"
  | t, _ => t

/-- The target of a locator behind its server, which may only be the own machine. -/
def ofLocal (d : Disk) (cs : List Char) : Target :=
  let cs := cs.takeWhile (· != '#')
  let path := readPart (cs.takeWhile (· != '?'))
  let options := Address.pieces '&' ((cs.dropWhile (· != '?')).drop 1)
  options.foldl
    (fun t o =>
      t.option path d (readPart (o.takeWhile (· != '=')))
        (readPart ((o.dropWhile (· != '=')).drop 1)))
    (ofPath d path .create)

def ofLocator (d : Disk) (locator : String) : Target :=
  if locator.contains '\x00' then .nowhere (.badValue "embedded null byte")
  else
    match locator.toList with
    | 'f' :: 'i' :: 'l' :: 'e' :: ':' :: '/' :: '/' :: rest =>
      let server := String.ofList (rest.takeWhile (· != '/'))
      if server = "" || server = "localhost" then ofLocal d (rest.dropWhile (· != '/'))
      else failing s!"invalid uri authority: {server}"
    | 'f' :: 'i' :: 'l' :: 'e' :: ':' :: rest => ofLocal d rest
    | _ => ofPath d locator .create

/-- The values of an option in a locator; several are shown side by side. -/
def valuesText : List String → String
  | [value] => value
  | values => "(" ++ ", ".intercalate (values.map fun value : String => Text.quoted value) ++ ")"

/-- The locator of an address: its path, and the options that are not for the driver by their
names.  Without a path there is nothing to add options to. -/
def locator (a : Address) : Except Failure String :=
  let options := (a.options.filter fun o => !Options.names.contains o.1).mergeSort
    fun x y => x.1 ≤ y.1
  let added := "&".intercalate (options.map fun (name, values) => s!"{name}={valuesText values}")
  if options.isEmpty then .ok (a.path.getD "None")
  else
    match a.path with
    | some path => .ok s!"{path}?{added}"
    | none =>
      .error (.wrongKind "unsupported operand type(s) for +=: 'NoneType' and 'str'")

/-- The target of an address with options.  What is behind a character zero is lost in a plain
path. -/
def ofAddress (d : Disk) (a : Address) (o : Options) : Except Failure Target := do
  let target ←
    if o.locator then (locator a).map (ofLocator d)
    else match a.file? with
      | none => .ok .memory
      | some path =>
        .ok <|
          .file (d.placeOf (.ofText (String.ofList (path.toList.takeWhile (· != '\x00'))))) .create
  match target, o.check with
  | .nowhere (.badValue message), _ => return .nowhere (.badValue message)
  | _, .error e => return .nowhere e
  | target, .ok () => return target

end Target

namespace Address

/-- Makes the directory of the file that an address names, whatever the driver. -/
def makeParent (a : Address) (d : Disk) : Except Failure Unit × Disk :=
  match a.names.head? == some "sqlite", a.file? with
  | true, some path => d.makeDirectory (Path.ofText path).parent
  | _, _ => (.ok (), d)

def target (a : Address) (d : Disk) : Except Failure Target := do
  let driver ← a.loadDriver
  if a.isAtServer then throw (.serverAddress a.text)
  let target ← Target.ofAddress d a (← Options.read a)
  match driver.condition with
  | .ready => return target
  | _ => throw (.blockingDriver driver.name)

end Address

end Agenda
