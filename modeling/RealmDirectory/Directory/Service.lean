import RealmDirectory.Directory.Registry
import RealmDirectory.Directory.Repository
import RealmDirectory.Sql.Database
import RealmDirectory.Sql.Location

/-!
# Services

A service runs a registry together with the databases behind its pools. Every pool has a
database of its own, empty when the pool is opened. A data source of the registry is a
source of connections: statements run on the database of its active pool.

## Main definitions

* `Service`: a registry and its databases.
* `Service.reply`: what a database says to a new pool.
* `Service.connections`: a data source as a source of connections.
* `Service.repository`: the repository of a realm.
-/

namespace RealmDirectory

/-- A registry and the databases of its pools, by the numbers of the data source and of
the pool. -/
structure Service where
  registry : Registry
  databases : KeyedList (Nat × Nat) Sql.Database := .empty

namespace Service

/-- A service of configured realms, none of which runs. -/
def ofRealms (realms : List RealmConfig) : Service where registry := Registry.ofRealms realms

/-! ### Statements -/

/-- A statement for rows that failed. -/
def queryFailed (f : Sql.Fault) : Failure := .database ("Query failed: " ++ f.message)

/-- A statement for changes that failed. -/
def statementFailed (f : Sql.Fault) : Failure := .database ("Statement failed: " ++ f.message)

/-- What a database says to a new pool: only those that live in memory can be opened, and
the test query runs on the empty database. -/
def reply (b : Backend) : Reply where
  opens := match b.dialect with
    | .sqlite => Sql.Location.opens b.url
    | _ => .error "no server is reachable"
  test := match (Sql.Database.empty.fetch b.dialect.testQuery []).1 with
    | .ok _ => .ok ()
    | .error f => .error (queryFailed f)

/-- The database of a pool. -/
def database (s : Service) (source : Nat) (pool : Pool) : Sql.Database :=
  (s.databases.get? (source, pool.number)).getD .empty

/-- Puts a database in the place of the one of a pool. -/
def setDatabase (s : Service) (source : Nat) (pool : Pool) (d : Sql.Database) : Service :=
  { s with databases := s.databases.insert (source, pool.number) d }

/-- Runs a statement on the database of the active pool of a data source. -/
def run {α : Type} (source : Nat) (onFault : Sql.Fault → Failure)
    (command : Pool → Sql.Database → Except Sql.Fault α × Sql.Database) :
    Session Service α :=
  fun s =>
    match (s.registry.source source).acquire with
    | .error f => (.error f, s)
    | .ok pool =>
        let (result, d) := command pool (s.database source pool)
        (result.mapError onFault, s.setDatabase source pool d)

/-- A data source as a source of connections. -/
def connections (source : Nat) : ConnectionSource Service where
  acquire := fun s => ((s.registry.source source).acquire.map fun _ => (), s)
  fetch := fun statement values =>
    run source queryFailed fun pool d => d.fetch (pool.dialect.bindMarks statement) values
  execute := fun statement values =>
    run source statementFailed fun pool d =>
      d.execute (pool.dialect.bindMarks statement) values

/-! ### Realms -/

/-- An operation on the registry as one on the service. -/
def onRegistry {α : Type} (f : Registry → Except Failure α × Registry) : Session Service α :=
  fun s =>
    let (result, registry) := f s.registry
    (result, { s with registry })

/-- The running realm with an identifier, which starts if it does not run yet. -/
def getOrConfigure (id : String) : Session Service Instance :=
  onRegistry (Registry.getOrConfigure reply id)

/-- Stores a configuration and runs it in place of what the realm runs now. -/
def reconfigure (realm : RealmConfig) : Session Service Instance :=
  onRegistry (Registry.reconfigure reply realm)

/-- Closes the data source of every realm that runs. -/
def close (s : Service) : Service := { s with registry := s.registry.close reply }

/-- The repository of a running realm. -/
def repositoryOf (i : Instance) : Repository Service := ⟨connections i.source, i.queries⟩

/-- The repository of the realm with an identifier. -/
def repository (id : String) : Session Service (Repository Service) := do
  return repositoryOf (← getOrConfigure id)

/-- Configures the data source of a running realm with another database. -/
def swap (i : Instance) (b : Backend) : Session Service Unit :=
  onRegistry fun r =>
    let (result, s) := (r.source i.source).configure (reply b) b
    (result, r.setSource i.source s)

/-- Closes the data source of a running realm. -/
def closeSource (i : Instance) : Session Service Unit :=
  onRegistry fun r => (.ok (), r.setSource i.source (r.source i.source).close)

end Service

end RealmDirectory
