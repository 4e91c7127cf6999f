import Agenda.Field
import Agenda.Problem

/-!
# Failures

How an operation can end without an answer.  Problems are the failures that the task tree itself
knows; the others come from the places where records are kept or from outside.
-/

namespace Agenda

/-- Why a directory cannot be made or looked at. -/
inductive Obstacle
  /-- Something on the way is missing. -/
  | missing
  /-- There is something else. -/
  | taken
  /-- Something on the way is a file. -/
  | notDirectory
  /-- A name, or the path as a whole, is too long. -/
  | tooLong
  deriving DecidableEq, Repr

/-- How an operation ends without an answer. -/
inductive Failure
  /-- The request is wrong. -/
  | problem (p : Problem)
  /-- The fields of a record are refused. -/
  | refused (subject : String) (errors : List Field.Error)
  /-- A value is unusable, as the message tells. -/
  | badValue (message : Text)
  /-- A value of another kind is needed, as the message tells. -/
  | wrongKind (message : Text)
  /-- Something else goes wrong, as the message tells. -/
  | broken (message : Text)
  /-- A number does not fit the database. -/
  | overflow
  /-- A text cannot be written, and so not be handed to the database. -/
  | unwritable (text : Text)
  /-- A number does not fit the driver of a database. -/
  | driverOverflow
  /-- A row repeats a value that must be unique. -/
  | duplicateRow
  /-- A session is used after one of its writes went wrong. -/
  | spentSession
  /-- A database cannot do its work, as the message tells. -/
  | inoperable (message : String)
  /-- A directory cannot be made or looked at. -/
  | unreachable (why : Obstacle) (path : String)
  /-- An address of a database does not have the form of one. -/
  | badAddress
  /-- The address of a database in a file names a server. -/
  | serverAddress (address : String)
  /-- An address asks for a module that does not exist. -/
  | unknownModule (group name : String)
  /-- What an address names as the driver is something else. -/
  | notDriver (part : String)
  /-- The library of a driver is absent. -/
  | absentLibrary (name : String)
  /-- An address names a driver that cannot serve requests side by side. -/
  | blockingDriver (name : String)
  /-- A setting refers to itself through too many others. -/
  | deepReference
  /-- A setting refers to one that does not exist. -/
  | missingReference
  /-- A reference to another setting is malformed. -/
  | badReference
  /-- The value of a setting was not put together, because its file could not be read to the end. -/
  | unfinishedSetting
  /-- A command needs an argument that its words do not supply. -/
  | absentArgument (name : String)
  /-- A value that is no text is looked up in a database. -/
  | notBindable
  deriving DecidableEq, Repr

def Obstacle.text : Obstacle → String
  | .missing => "[Errno 2] No such file or directory"
  | .taken => "[Errno 17] File exists"
  | .notDirectory => "[Errno 20] Not a directory"
  | .tooLong => "[Errno 36] File name too long"

namespace Failure

def message : Failure → Text
  | .problem p => p.message
  | .refused subject errors => Field.report subject errors
  | .badValue message => message
  | .wrongKind message => message
  | .broken message => message
  | .overflow => "Python int too large to convert to SQLite INTEGER"
  | .unwritable text => text.unwritableMessage
  | .driverOverflow => "Python int too large to convert to C int"
  | .duplicateRow => "(sqlite3.IntegrityError) UNIQUE constraint failed"
  | .spentSession => "This Session's transaction has been rolled back due to a previous exception"
  | .inoperable message => s!"(sqlite3.OperationalError) {message}"
  | .unreachable why path => s!"{why.text}: {Text.quoted path}"
  | .badAddress => "Could not parse SQLAlchemy URL from given URL string"
  | .serverAddress address =>
    s!"Invalid SQLite URL: {address}\nValid SQLite URL forms are\n" ++
      " sqlite:///:memory: or sqlite:////absolute/path/to/file.db"
  | .unknownModule group name => s!"Can't load plugin: sqlalchemy.{group}:{name}"
  | .notDriver part => s!"{part} has no attribute 'dialect'"
  | .absentLibrary name => s!"No module named {Text.quoted name}"
  | .blockingDriver name =>
    "The asyncio extension requires an async driver to be used. " ++
      s!"The loaded {Text.quoted name} is not async."
  | .deepReference => "references nest too deeply"
  | .missingReference => "a reference has no target"
  | .badReference => "malformed reference"
  | .unfinishedSetting => "'list' object has no attribute 'find'"
  | .absentArgument name => s!"'Namespace' object has no attribute {Text.quoted name}"
  | .notBindable => "Error binding parameter 1: type 'list' is not supported"

/-- A failure as the operation around it reports it: problems get the context, all else passes. -/
def inContext (c : Problem.Context) : Failure → Failure
  | .problem p => .problem (p.inContext c)
  | f => f

def of (reason : Problem.Reason) : Failure := .problem (.of reason)

end Failure

end Agenda
