import Agenda.Connection.Address

/-!
# Dialects and drivers

The kinds of databases that an address may name, and their drivers.  Of all drivers one can be
used: the one for databases in files or in memory that serves requests side by side.  A dialect has
other parts besides its drivers; an address may name one of them, but that is a mistake of its
own.
-/

namespace Agenda

/-- What can be said of a driver. -/
inductive Driver.Condition
  /-- It serves requests side by side. -/
  | ready
  /-- It serves one request at a time. -/
  | blocking
  /-- The library that it needs is not there. -/
  | absent (library : String)
  deriving DecidableEq, Repr

structure Driver where
  name : String
  condition : Driver.Condition
  deriving DecidableEq, Repr

structure Dialect where
  /-- The package of the dialect. -/
  package : String
  /-- The driver if none is named. -/
  default : Driver
  drivers : List Driver
  /-- The modules of the package that are no drivers. -/
  modules : List String
  /-- The types of the package, and the functions that are types. -/
  types : List String
  /-- Its other functions. -/
  functions : List String
  deriving DecidableEq, Repr

namespace Dialect

def absent (name library : String) : Driver := ⟨name, .absent library⟩

/-- Databases in files or in memory. -/
def sqlite : Dialect where
  package := "sqlite"
  default := ⟨"pysqlite", .blocking⟩
  drivers := [⟨"aiosqlite", .ready⟩, ⟨"pysqlite", .blocking⟩, absent "pysqlcipher" "pysqlcipher3"]
  modules := ["dml", "json"]
  types := ["BLOB", "BOOLEAN", "CHAR", "DATE", "DATETIME", "DECIMAL", "FLOAT", "INTEGER", "Insert",
    "JSON", "NUMERIC", "REAL", "SMALLINT", "TEXT", "TIME", "TIMESTAMP", "VARCHAR"]
  functions := ["insert"]

def postgresql : Dialect where
  package := "postgresql"
  default := absent "psycopg" "psycopg"
  drivers := [absent "asyncpg" "asyncpg", absent "pg8000" "pg8000", absent "psycopg" "psycopg",
    absent "psycopg2" "psycopg2", absent "psycopg2cffi" "psycopg2cffi",
    absent "psycopg_async" "psycopg"]
  modules := ["_psycopg_common", "arraylib", "dml", "ext", "json", "named_types", "operators",
    "pg_catalog", "ranges", "types"]
  types := ["ARRAY", "AbstractMultiRange", "AbstractRange", "AbstractSingleRange", "All", "Any",
    "BIGINT", "BIT", "BOOLEAN", "BYTEA", "CHAR", "CIDR", "CITEXT", "CreateDomainType",
    "CreateEnumType", "DATE", "DATEMULTIRANGE", "DATERANGE", "DOMAIN", "DOUBLE_PRECISION",
    "DropDomainType", "DropEnumType", "ENUM", "ExcludeConstraint", "FLOAT", "HSTORE", "INET",
    "INT4MULTIRANGE", "INT4RANGE", "INT8MULTIRANGE", "INT8RANGE", "INTEGER", "INTERVAL", "Insert",
    "JSON", "JSONB", "JSONPATH", "MACADDR", "MACADDR8", "MONEY", "ModuleType", "MultiRange",
    "NUMERIC", "NUMMULTIRANGE", "NUMRANGE", "NamedType", "OID", "REAL", "REGCLASS", "REGCONFIG",
    "Range", "SMALLINT", "TEXT", "TIME", "TIMESTAMP", "TSMULTIRANGE", "TSQUERY", "TSRANGE",
    "TSTZMULTIRANGE", "TSTZRANGE", "TSVECTOR", "UUID", "VARCHAR", "aggregate_order_by", "array",
    "hstore", "phraseto_tsquery", "plainto_tsquery", "to_tsquery", "to_tsvector", "ts_headline",
    "websearch_to_tsquery"]
  functions := ["array_agg", "insert"]

def mysql : Dialect where
  package := "mysql"
  default := absent "mysqldb" "MySQLdb"
  drivers := [absent "aiomysql" "aiomysql", absent "asyncmy" "asyncmy", absent "cymysql" "cymysql",
    absent "mariadbconnector" "mariadb", absent "mysqlconnector" "mysql",
    absent "mysqldb" "MySQLdb", absent "pymysql" "pymysql", absent "pyodbc" "pyodbc"]
  modules := ["dml", "enumerated", "expression", "json", "mariadb", "reflection",
    "reserved_words", "types"]
  types := ["BIGINT", "BINARY", "BIT", "BLOB", "BOOLEAN", "CHAR", "DATE", "DATETIME", "DECIMAL",
    "DOUBLE", "ENUM", "FLOAT", "INET4", "INET6", "INTEGER", "Insert", "JSON", "LONGBLOB",
    "LONGTEXT", "MEDIUMBLOB", "MEDIUMINT", "MEDIUMTEXT", "NCHAR", "NUMERIC", "NVARCHAR", "REAL",
    "SET", "SMALLINT", "TEXT", "TIME", "TIMESTAMP", "TINYBLOB", "TINYINT", "TINYTEXT",
    "VARBINARY", "VARCHAR", "YEAR", "match"]
  functions := ["insert"]

/-- The dialect that shares the package of another one; only the modules of the package are its
parts. -/
def mariadb : Dialect :=
  { mysql with modules := "provision" :: mysql.modules, types := [], functions := [] }

def oracle : Dialect where
  package := "oracle"
  default := absent "oracledb" "oracledb"
  drivers := [absent "cx_oracle" "cx_Oracle", absent "oracledb" "oracledb",
    absent "oracledb_async" "oracledb"]
  modules := ["dictionary", "types", "vector"]
  types := ["BFILE", "BINARY_DOUBLE", "BINARY_FLOAT", "BLOB", "BOOLEAN", "CHAR", "CLOB", "DATE",
    "DOUBLE_PRECISION", "FLOAT", "INTERVAL", "LONG", "ModuleType", "NCHAR", "NCLOB", "NUMBER",
    "NVARCHAR", "NVARCHAR2", "RAW", "REAL", "ROWID", "SparseVector", "TIMESTAMP", "VARCHAR",
    "VARCHAR2", "VECTOR", "VectorDistanceType", "VectorIndexConfig", "VectorIndexType",
    "VectorStorageFormat"]
  functions := []

def mssql : Dialect where
  package := "mssql"
  default := absent "pyodbc" "pyodbc"
  drivers := [absent "aioodbc" "aioodbc", absent "pymssql" "pymssql", absent "pyodbc" "pyodbc"]
  modules := ["information_schema", "json"]
  types := ["BIGINT", "BINARY", "BIT", "CHAR", "DATE", "DATETIME", "DATETIME2", "DATETIMEOFFSET",
    "DECIMAL", "DOUBLE_PRECISION", "FLOAT", "IMAGE", "INTEGER", "JSON", "MONEY", "NCHAR", "NTEXT",
    "NUMERIC", "NVARCHAR", "REAL", "ROWVERSION", "SMALLDATETIME", "SMALLINT", "SMALLMONEY",
    "SQL_VARIANT", "TEXT", "TIME", "TIMESTAMP", "TINYINT", "UNIQUEIDENTIFIER", "VARBINARY",
    "VARCHAR", "XML", "try_cast"]
  functions := []

def all : List (String × Dialect) :=
  [("sqlite", sqlite), ("postgresql", postgresql), ("mysql", mysql), ("mariadb", mariadb),
    ("oracle", oracle), ("mssql", mssql)]

/-- Names that every module has by being one. -/
def moduleNames : List String :=
  ["__all__", "__annotations__", "__builtins__", "__cached__", "__class__", "__delattr__",
    "__dict__", "__dir__", "__doc__", "__eq__", "__file__", "__format__", "__ge__",
    "__getattribute__", "__getstate__", "__gt__", "__hash__", "__init__", "__init_subclass__",
    "__le__", "__loader__", "__lt__", "__name__", "__ne__", "__new__", "__package__", "__path__",
    "__reduce__", "__reduce_ex__", "__repr__", "__setattr__", "__sizeof__", "__spec__", "__str__",
    "__subclasshook__"]

/-- What a name in a dialect stands for that is no driver. -/
def part? (d : Dialect) (name : String) : Option String :=
  if d.modules.contains name then some s!"module 'sqlalchemy.dialects.{d.package}.{name}'"
  else if d.types.contains name then some s!"type object '{name}'"
  else if d.functions.contains name then some "'function' object"
  else if d.types.isEmpty then none
  else if name = "dialect" then some s!"type object '{name}'"
  else if moduleNames.contains name then some s!"'{name}' object"
  else none

def driver (d : Dialect) (called name : String) : Except Failure Driver :=
  if name = "base" then .ok d.default
  else
    match d.drivers.find? (·.name = name) with
    | some driver => .ok driver
    | none =>
      match d.part? name with
      | some part => .error (.notDriver part)
      | none => .error (.unknownModule "dialects" s!"{called}.{name}")

end Dialect

namespace Address

def driver (a : Address) : Except Failure Driver :=
  match a.names with
  | [name] =>
    match Dialect.all.lookup name with
    | some d => .ok d.default
    | none => .error (.unknownModule "dialects" name)
  | [name, driver] =>
    match Dialect.all.lookup name with
    | some d => d.driver name driver
    | none => .error (.unknownModule "dialects" s!"{name}.{driver}")
  | _ => .error (.badValue "too many values to unpack (expected 2)")

/-- A dialect is loaded after the plugins that an address names, of which none is known. -/
def loadDriver (a : Address) : Except Failure Driver :=
  match a.options.lookup "plugin" with
  | some (plugin :: _) => .error (.unknownModule "plugins" plugin)
  | _ => do
    let d ← a.driver
    match d.condition with
    | .absent library => .error (.absentLibrary library)
    | _ => .ok d

end Address

end Agenda
