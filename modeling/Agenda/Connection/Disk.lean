import Agenda.Store.Database

/-!
# The disk

Directories, and the files that databases are kept in.  A place is known by the names that lead to
it from the top of the disk; a path is a way there, from the top or from the directory where the
program is called, and a step back in it is one from the directory that was reached.  A path can be
too long as a whole, and so can each of its names.
-/

namespace Agenda

/-- The names that lead to a place from the top of the disk. -/
abbrev Place := List String

/-- A way to a place. -/
structure Path where
  /-- It begins at the top. -/
  isAbsolute : Bool
  names : List String
  deriving DecidableEq, Repr

namespace Path

/-- Reads a path; a name that stays where it is is left out. -/
def ofText (s : String) : Path :=
  ⟨s.startsWith "/", (s.splitOn "/").filter fun name => name ≠ "" && name ≠ "."⟩

def text (p : Path) : String :=
  let names := "/".intercalate p.names
  if p.isAbsolute then "/" ++ names else if p.names.isEmpty then "." else names

/-- What a path leads to is in the directory that this path leads to. -/
def parent (p : Path) : Path := { p with names := p.names.dropLast }

/-- The most bytes in a path, less one. -/
def maxBytes : Nat := 4096

/-- The most bytes in a name. -/
def maxNameBytes : Nat := 255

end Path

namespace Disk

/-- What is at a place. -/
inductive Entry
  | directory
  /-- The file of a database. -/
  | tables (db : Database)
  /-- A file that cannot hold tables. -/
  | otherFile
  deriving DecidableEq, Repr

end Disk

/-- What is on the disk, and where the program is called.  The top is always a directory. -/
structure Disk where
  entries : List (Place × Disk.Entry)
  here : Place
  deriving DecidableEq, Repr, Inhabited

namespace Disk

/-- A disk with some directories; the program is called at the top. -/
def ofDirectories (places : List Place) : Disk := ⟨places.map fun place => (place, .directory), []⟩

def entry? (d : Disk) (place : Place) : Option Entry :=
  if place.isEmpty then some .directory else d.entries.lookup place

def put (d : Disk) (place : Place) (e : Entry) : Disk :=
  { d with entries := (place, e) :: d.entries.filter (·.1 != place) }

/-! ### Following paths -/

/-- Follows names from a place; nothing need be where the last of them leads. -/
def follow (d : Disk) (place : Place) : List String → Except Obstacle Place
  | [] => .ok place
  | name :: rest =>
    match d.entry? place with
    | none => .error .missing
    | some .directory =>
      if Path.maxNameBytes < name.utf8ByteSize then .error .tooLong
      else d.follow (if name = ".." then place.dropLast else place ++ [name]) rest
    | some _ => .error .notDirectory

/-- The place where a path begins. -/
def start (d : Disk) (p : Path) : Place := if p.isAbsolute then [] else d.here

def locate (d : Disk) (p : Path) : Except Obstacle Place :=
  if Path.maxBytes ≤ p.text.utf8ByteSize then .error .tooLong else d.follow (d.start p) p.names

/-- The place of a path whose steps back are taken by the names alone. -/
def placeOf (d : Disk) (p : Path) : Place :=
  (p.names.foldl (fun back name => if name = ".." then back.drop 1 else name :: back)
    (d.start p).reverse).reverse

/-- As `placeOf`, with a look at every place on the way: none may be behind a file or too long. -/
def placeAlong (d : Disk) (place : Place) : List String → Except Obstacle Place
  | [] => .ok place
  | name :: rest =>
    if name = ".." then d.placeAlong place.dropLast rest
    else
      match d.follow [] (place ++ [name]) with
      | .ok next => d.placeAlong next rest
      | .error .missing => d.placeAlong (place ++ [name]) rest
      | .error o => .error o

/-- Something is where a path leads, or the path is too long to tell. -/
def contains (d : Disk) (p : Path) : Except Failure Bool :=
  if p.names.any (·.contains '\x00') then .ok false
  else
    match d.locate p with
    | .ok place => .ok (d.entry? place).isSome
    | .error .tooLong => .error (.unreachable .tooLong p.text)
    | .error _ => .ok false

/-! ### Making directories -/

/-- Makes the directory that a path leads to, in a directory that is there. -/
def makeOne (d : Disk) (p : Path) : Except Obstacle Disk :=
  match d.locate p with
  | .error o => .error o
  | .ok place => if (d.entry? place).isSome then .error .taken else .ok (d.put place .directory)

def isDirectory (d : Disk) (p : Path) : Bool :=
  match d.locate p with
  | .ok place => d.entry? place == some .directory
  | .error _ => false

/-- It is no failure if a directory is there already. -/
def orElseThere (d : Disk) (p : Path) : Except Obstacle Disk → Except Failure Unit × Disk
  | .ok made => (.ok (), made)
  | .error o => (if d.isDirectory p then .ok () else .error (.unreachable o p.text), d)

/-- Makes the directory that names lead to, the last name first, and all that it is in.  The
directories that were made on the way stay even if one cannot be made. -/
def makeAll (d : Disk) (isAbsolute : Bool) : List String → Except Failure Unit × Disk
  | [] => (.ok (), d)
  | name :: before =>
    let p : Path := ⟨isAbsolute, (name :: before).reverse⟩
    match d.makeOne p with
    | .error .missing =>
      match d.makeAll isAbsolute before with
      | (.error e, made) => (.error e, made)
      | (.ok (), made) => made.orElseThere p (made.makeOne p)
    | tried => d.orElseThere p tried

/-- Makes the directory that a path leads to, and all that it is in. -/
def makeDirectory (d : Disk) (p : Path) : Except Failure Unit × Disk :=
  if p.names.any (·.contains '\x00') then (.error (.badValue "embedded null byte"), d)
  else d.makeAll p.isAbsolute p.names.reverse

/-! ### Databases in files -/

/-- What may be done with the file of a database. -/
inductive Access
  /-- It is read and written, and made if it is missing. -/
  | create
  /-- It is read and written. -/
  | write
  /-- It is only read. -/
  | read
  deriving DecidableEq, Repr

def cannotOpen : Failure := .inoperable "unable to open database file"

/-- The most bytes in the path of a database. -/
def maxDatabaseBytes : Nat := 504

/-- The most bytes in the name of a file, if a journal is to be kept beside it. -/
def maxJournaledBytes : Nat := 247

/-- The tables in the file at a place. -/
def tables (d : Disk) (place : Place) : Except Failure Database :=
  match d.entry? place with
  | some (.tables db) => .ok db
  | _ => .error cannotOpen

/-- A file can be made at a place. -/
def canMake (d : Disk) (place : Place) : Bool :=
  (Path.mk true place).text.utf8ByteSize ≤ maxDatabaseBytes &&
    place.all (·.utf8ByteSize ≤ Path.maxNameBytes) && d.entry? place.dropLast == some .directory

/-- Makes the tables in the file at a place, unless they are there.  No tables come into a file
that has no room for a journal beside it. -/
def makeTables (d : Disk) (place : Place) (access : Access) : Except Failure Unit × Disk :=
  match d.entry? place with
  | some (.tables _) => (.ok (), d)
  | some _ => (.error cannotOpen, d)
  | none =>
    if access = .create && d.canMake place then
      if (place.getLast?.getD "").utf8ByteSize ≤ maxJournaledBytes then
        (.ok (), d.put place (.tables .empty))
      else (.error cannotOpen, d.put place .otherFile)
    else (.error cannotOpen, d)

end Disk

end Agenda
