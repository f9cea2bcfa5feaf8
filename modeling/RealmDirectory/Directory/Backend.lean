import RealmDirectory.Query.Dialect
import RealmDirectory.Url.Basic

/-!
# Database connections

The settings of a connection to the database of a directory. Settings are checked before
they are used, and credentials that are given beside the URL are put into it.

## Main definitions

* `Backend`: the settings.
* `Backend.check`: whether they can be used.
* `Backend.connectUrl`: the URL to connect to, with the credentials in it.
-/

namespace RealmDirectory

/-- The settings of a connection to a database. -/
structure Backend where
  /-- The dialect of the database. -/
  dialect : Dialect
  /-- The URL of the database. -/
  url : String
  /-- The user to connect as. -/
  user : Option String := none
  /-- The password to connect with. -/
  password : Option String := none
  /-- The greatest number of connections at a time. -/
  maxConnections : UInt32 := 10
  /-- The seconds to wait for a connection. -/
  timeout : UInt64 := 30
  deriving DecidableEq, Repr

namespace Backend

/-- A database in memory, with one connection. -/
def inMemory : Backend :=
  { dialect := .sqlite, url := "sqlite::memory:", maxConnections := 1 }

/-- The settings with other credentials; empty ones count as none. -/
def withCredentials (b : Backend) (user password : Option String) : Backend :=
  { b with
    user := user.filter fun u => !u.isEmpty
    password := password.filter fun p => !p.isEmpty }

/-- Whether the database lives in memory only. -/
def isInMemory (b : Backend) : Bool :=
  b.dialect == .sqlite && Text.occursIn ":memory:".toList b.url.toList

/-- The text of a URL before its first colon, in lower case; empty without a colon. -/
def schemeOf (url : String) : String :=
  match Text.cut ':' url.toList with
  | some (before, _) => String.ofList (before.map Char.toLower)
  | none => ""

/-- Refuses settings that cannot be used, with the reason. -/
def check (b : Backend) : Except String Unit :=
  if b.url.isEmpty then .error "Connection URL cannot be empty"
  else if b.maxConnections = 0 then .error "Max connections must be greater than 0"
  else if !b.dialect.urlSchemes.contains (schemeOf b.url) then
    .error (b.dialect.description ++ " connection URL must start with one of: " ++
      Text.join ", " (b.dialect.urlSchemes.map fun s => "'" ++ s ++ ":'"))
  else .ok ()

/-- The URL with the user name in it, when there is one. -/
def carryUser (user : Option String) (u : Url) : Except Failure Url :=
  match user with
  | none => .ok u
  | some name =>
      match u.withUsername name with
      | some u => .ok u
      | none => .error (.configuration "Connection URL cannot carry a user")

/-- The URL with the password in it, when there is one. -/
def carryPassword (password : Option String) (u : Url) : Except Failure Url :=
  match password with
  | none => .ok u
  | some secret =>
      match u.withPassword secret with
      | some u => .ok u
      | none => .error (.configuration "Connection URL cannot carry a password")

/-- The URL to connect to. Without credentials it is the configured text itself; with
them, the URL is read, takes them and is written again. -/
def connectUrl (b : Backend) : Except Failure String :=
  if b.user.isNone && b.password.isNone then .ok b.url
  else if b.dialect = .sqlite then
    .error (.configuration "SQLite connections do not take a user or password")
  else
    match Url.parse b.url with
    | .error fault =>
        .error (.configuration ("Invalid connection URL: " ++ fault.message))
    | .ok u => do
        let u ← carryUser b.user u
        let u ← carryPassword b.password u
        .ok u.render

end Backend

end RealmDirectory
