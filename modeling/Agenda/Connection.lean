import Agenda.Connection.Target
import Agenda.Store.Session

/-!
# Connections

A connection leads to the database at an address.  It is made without looking at the address;
opening it makes the directory of the file and the tables, closing it leaves a file as it is and
forgets a database in memory.  Once the address has been read the connection counts as open, even
if there are no tables behind it.  Sessions need an open connection.  One connection of a process
may be shared: it is made when somebody first asks for it, and whoever asks later gets the same one,
whatever address it asks for.
-/

namespace Agenda

/-- Where the tables behind an open connection are. -/
inductive Storage
  | memory (db : Database)
  | file (place : Place) (access : Disk.Access)
  /-- There are none, for a reason. -/
  | nowhere (e : Failure)
  deriving DecidableEq, Repr

structure Connection where
  url : String
  /-- Where the tables are, if the connection is open. -/
  storage : Option Storage
  deriving DecidableEq, Repr

namespace Connection

def unopened (url : String) : Connection := ⟨url, none⟩

def isOpen (c : Connection) : Bool := c.storage.isSome

/-- A connection and the disk. -/
abbrev State := Connection × Disk

def record (level : Log.Level) (message : Text) : Log.Record :=
  Log.Component.database.record level message

/-- What is logged when a connection cannot be opened. -/
def failing (e : Failure) : Log.Record :=
  record .error ("Failed to initialize database: " ++ e.message)

/-- Makes the tables at a target. -/
def makeTables (disk : Disk) : Target → Except Failure Unit × Storage × Disk
  | .memory => (.ok (), .memory .empty, disk)
  | .file place access =>
    let (result, disk) := disk.makeTables place access
    (result, .file place access, disk)
  | .nowhere e => (.error e, .nowhere e, disk)

/-- The target of a connection, and the disk with the directory of its file. -/
def reach (c : Connection) (disk : Disk) : Except Failure Target × Disk :=
  match Address.read c.url with
  | .error e => (.error e, disk)
  | .ok a =>
    let (made, disk) := a.makeParent disk
    (made.bind fun _ => a.target disk, disk)

/-- Opens a connection; opening an open one opens it anew. -/
def connect (c : Connection) (disk : Disk) : Program.Run State Unit :=
  let begun := record .info s!"Initializing database: {c.url}"
  match c.reach disk with
  | (.error e, disk) => ⟨.error e, (c, disk), [begun, failing e]⟩
  | (.ok target, disk) =>
    let (result, storage, disk) := makeTables disk target
    let last := match result with
      | .error e => failing e
      | .ok () => record .info "Database initialized successfully"
    ⟨result, ({ c with storage := some storage }, disk), [begun, last]⟩

def close (c : Connection) : Connection × List Log.Record :=
  if c.isOpen then
    ({ c with storage := none },
      [record .info "Closing database connection",
        record .info "Database connection closed successfully"])
  else (c, [])

def readOnly : Failure := .inoperable "attempt to write a readonly database"

/-- Work that fails as soon as it would write. -/
def onlyReading {α : Type} (work : Session.Work α) : Session.Work α := fun s =>
  let ran := work s
  let writes := ran.store.current != s.current || match ran.result with
    | .error .duplicateRow => true
    | _ => false
  if writes then ⟨.error readOnly, s, ran.log⟩ else ran

/-- A session that fails as it begins. -/
def neverBegun {α : Type} (c : Connection) (disk : Disk) (e : Failure) : Program.Run State α :=
  ⟨.error e, (c, disk), [Database.undoing e.message]⟩

/-- Does work in a session of its own on the database behind a connection. -/
def inSession {α : Type} (c : Connection) (disk : Disk) (work : Session.Work α) :
    Program.Run State α :=
  match c.storage with
  | none =>
    ⟨.error (.broken "DatabaseManager not initialized. Call initialize() first."), (c, disk), []⟩
  | some (.memory db) =>
    let ran := db.inSession work
    ⟨ran.result, ({ c with storage := some (.memory ran.store) }, disk), ran.log⟩
  | some (.file place access) =>
    match disk.tables place with
    | .error e => c.neverBegun disk e
    | .ok db =>
      let ran := db.inSession (if access = .read then onlyReading work else work)
      ⟨ran.result, (c, disk.put place (.tables ran.store)), ran.log⟩
  | some (.nowhere e) => c.neverBegun disk e

end Connection

/-! ### The connections of a process -/

/-- The connections of a process, and the disk. -/
structure Connections where
  made : List Connection
  /-- The place of the shared connection. -/
  shared : Option Nat
  disk : Disk
  deriving DecidableEq, Repr

namespace Connections

def start (disk : Disk) : Connections := ⟨[], none, disk⟩

/-- Makes a connection: its place, and the connections with it. -/
def make (cs : Connections) (url : String) : Nat × Connections :=
  (cs.made.length, { cs with made := cs.made ++ [.unopened url] })

/-- The place of the shared connection, which is made if there is none. -/
def sharedTo (cs : Connections) (url : String) : Nat × Connections :=
  match cs.shared with
  | some place => (place, cs)
  | none =>
    let (place, cs) := cs.make url
    (place, { cs with shared := some place })

def get? (cs : Connections) (place : Nat) : Option Connection := cs.made[place]?

/-- Does something with the connection at a place and the disk. -/
def update {α : Type} (cs : Connections) (place : Nat)
    (f : Connection → Disk → Program.Run Connection.State α) : Program.Run Connections α :=
  match cs.get? place with
  | none => ⟨.error (.broken "no such connection"), cs, []⟩
  | some c =>
    let ran := f c cs.disk
    let (c, disk) := ran.store
    ⟨ran.result, { cs with made := cs.made.set place c, disk := disk }, ran.log⟩

end Connections

end Agenda
