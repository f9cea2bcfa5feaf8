import RealmDirectory.Directory.Backend
import RealmDirectory.Query.TemplateSet

/-!
# Realms

A realm is one user directory as an administrator configures it: an identifier, a
database, the statements, and what the host may do. A configuration is a server address
with the realms that it serves.

## Main definitions

* `RealmConfig`: one realm, with `RealmConfig.templateSet` for its statements.
* `RealmConfig.check`, `DirectoryConfig.check`: whether they can be used.
* `DirectoryConfig.standard`: what is served without a configuration.
-/

namespace RealmDirectory

/-- The statements of a realm, as they are configured. Blank ones count as not given. -/
structure QueriesConfig where
  base : String := "select \x7bcolumns\x7d from users where \x7bfilters\x7d"
  count : String := ""
  findById : String := ""
  findByUsername : String := ""
  findByEmail : String := ""
  columns : List String :=
    ["id=my_id_column", "username=my_username_column", "firstName=my_first_name_column",
      "lastName=my_last_name_column", "email=my_email_column", "locale=my_locale_column",
      "EMAIL_VERIFIED=my_email_verified_column", "ENABLED=my_enabled_column",
      "CREATED_TIMESTAMP=my_created_timestamp_column"]
  findPasswordHash : String := "select hash_pwd from users where \"username\" = ?"
  hashFunction : String := "SHA-1"
  updatePassword : String := ""
  deriving DecidableEq, Repr

/-- The statements as templates. -/
def QueriesConfig.templates (q : QueriesConfig) : Templates where
  base := q.base
  count := some q.count
  findById := some q.findById
  findByUsername := some q.findByUsername
  findByEmail := some q.findByEmail
  findPasswordHash := q.findPasswordHash
  updatePassword := some q.updatePassword

/-- A user directory as it is configured. -/
structure RealmConfig where
  /-- The identifier, under which requests find the realm. -/
  id : String
  /-- The name that people read. -/
  name : Option String := none
  /-- The database. -/
  database : Backend
  /-- The statements. -/
  queries : QueriesConfig := {}
  /-- Whether users may be removed. -/
  allowDelete : Bool := false
  /-- Whether users may be overwritten. -/
  allowOverwrite : Bool := false
  deriving DecidableEq, Repr

namespace RealmConfig

/-- The name that people read; the identifier when there is none. -/
def displayName (r : RealmConfig) : String := r.name.getD r.id

/-- The settings of connections to the database. -/
def backend (r : RealmConfig) : Backend :=
  r.database.withCredentials r.database.user r.database.password

/-- The statements ready for use. The hash function has to be known. -/
def templateSet (r : RealmConfig) : Except Failure TemplateSet := do
  let engine ← HashEngine.ofName r.queries.hashFunction
  .ok (TemplateSet.ofTemplates r.queries.templates (ColumnMapping.parse r.queries.columns)
    engine r.database.dialect r.allowDelete r.allowOverwrite)

/-- A problem of the realm, under its identifier. -/
def problem (r : RealmConfig) (text : String) : Failure :=
  .configuration ("Realm " ++ r.id ++ ": " ++ text)

/-- A failure of the realm's configuration, under its identifier. -/
def attributed (r : RealmConfig) : Failure → Failure
  | .configuration text => r.problem text
  | f => f

/-- Refuses a realm that cannot be used. -/
def check (r : RealmConfig) : Except Failure Unit :=
  if Text.isBlankText r.id then .error (.configuration "Realm id cannot be empty")
  else
    match r.backend.check with
    | .error text => .error (r.problem text)
    | .ok () =>
        match r.templateSet with
        | .error f => .error (r.attributed f)
        | .ok _ => .ok ()

end RealmConfig

/-- The address that a server listens on. -/
structure ServerConfig where
  host : String := "127.0.0.1"
  port : UInt16 := 8080
  deriving DecidableEq, Repr

/-- A server and its realms. -/
structure DirectoryConfig where
  server : ServerConfig := {}
  realms : List RealmConfig
  deriving DecidableEq, Repr

namespace DirectoryConfig

/-- Refuses the first realm that repeats an identifier or cannot be used, given the
identifiers before it. -/
def checkFrom (seen : List String) : List RealmConfig → Except Failure Unit
  | [] => .ok ()
  | r :: rest =>
      if seen.contains r.id then .error (.configuration ("Duplicate realm id: " ++ r.id))
      else
        match r.check with
        | .error f => .error f
        | .ok () => checkFrom (r.id :: seen) rest

/-- Refuses a configuration that cannot be used. -/
def check (c : DirectoryConfig) : Except Failure Unit :=
  if c.realms.isEmpty then
    .error (.configuration "Configuration must contain at least one realm")
  else checkFrom [] c.realms

/-- The first realm with an identifier. -/
def find? (c : DirectoryConfig) (id : String) : Option RealmConfig :=
  c.realms.find? fun r => r.id == id

/-- What is served without a configuration: one realm on an empty database in memory. -/
def standard : DirectoryConfig where
  realms :=
    [{ id := "default", name := some "In-memory users", database := Backend.inMemory }]

end DirectoryConfig

end RealmDirectory
