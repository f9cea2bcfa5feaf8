import RealmDirectory.Directory.Backend

/-!
# Data sources

A data source gives connections from one active pool, which can be replaced while it is in
use. A new pool is opened and tested before it becomes the active one, and a pool that is
replaced, or fails its test, is handed to a close.

Calls on a data source take several steps, and the steps of different calls can alternate
in any order. A step is everything that a call does at once: opening a pool, testing it,
or one access to the active pool. What the database says in a step comes from outside. A
call that runs alone takes its steps one after the other.

## Main definitions

* `DataSource`: the active pool, and what became of the pools.
* `DataSource.Call`, `DataSource.Call.step`: a call between two steps, and its next step.
* `DataSource.configure`, `DataSource.acquire`, `DataSource.close`: whole calls.
-/

namespace RealmDirectory

/-- A pool of connections: the number under which a data source opened it, and the dialect
of its database. -/
structure Pool where
  number : Nat
  dialect : Dialect
  deriving DecidableEq, Repr

/-- What a database says to a new pool. -/
structure Reply where
  /-- Whether the pool can be opened, or what is in the way. -/
  opens : Except String Unit
  /-- Whether the test query succeeds. -/
  test : Except Failure Unit

/-- A source of connections and the history of its pools. -/
structure DataSource where
  /-- The pool that gives connections. -/
  active : Option Pool := none
  /-- The pools that were opened. -/
  opened : List Pool := []
  /-- The pools whose test query succeeded. -/
  passed : List Pool := []
  /-- The pools that were handed to a close. -/
  retired : List Pool := []
  deriving DecidableEq, Repr

namespace DataSource

/-- A call between two of its steps. -/
inductive Call where
  /-- Opens a pool next. -/
  | configuring (backend : Backend)
  /-- Tests the pool that it opened next. -/
  | testing (pool : Pool)
  /-- Makes its pool the active one next. -/
  | publishing (pool : Pool)
  /-- Is over, and the data source is configured unless it failed. -/
  | configured (result : Except Failure Unit)
  /-- Looks up the active pool next. -/
  | acquiring
  /-- Takes a connection of a pool next. -/
  | connecting (pool : Pool)
  /-- Is over, with a connection of a pool unless it failed. -/
  | acquired (result : Except Failure Pool)
  /-- Takes the active pool away next. -/
  | closing
  /-- Is over. -/
  | closed

/-- Refuses settings with which no pool is opened. -/
def checkSettings (b : Backend) : Except Failure Unit :=
  match b.check with
  | .error text => .error (.configuration ("Invalid database config: " ++ text))
  | .ok () =>
      if b.dialect.isExecutable then b.connectUrl.map fun _ => ()
      else
        .error (.configuration ("No database driver available for " ++ b.dialect.description))

/-- A pool that cannot be opened. -/
def refused (b : Backend) (reason : String) : Failure :=
  .database ("Failed to connect to " ++ b.dialect.description ++ ": " ++ reason)

/-- A pool whose test query failed. -/
def untested (f : Failure) : Failure :=
  .database ("Connection test query failed: " ++ f.message)

/-- No pool is active. -/
def unavailable : Failure := .unavailable "No data source configured"

/-- A pool that was closed before a connection was taken. -/
def gone : Failure :=
  .unavailable ("Failed to acquire connection: " ++ DriverFault.poolClosed.message)

/-- The next step of a call. A call that is over takes none. -/
def Call.step (reply : Reply) (s : DataSource) : Call → Call × DataSource
  | configuring b =>
      match checkSettings b, reply.opens with
      | .error f, _ => (configured (.error f), s)
      | .ok (), .error reason => (configured (.error (refused b reason)), s)
      | .ok (), .ok () =>
          let pool : Pool := ⟨s.opened.length, b.dialect⟩
          (testing pool, { s with opened := s.opened ++ [pool] })
  | testing pool =>
      match reply.test with
      | .ok () => (publishing pool, { s with passed := s.passed ++ [pool] })
      | .error f =>
          (configured (.error (untested f)), { s with retired := s.retired ++ [pool] })
  | publishing pool =>
      (configured (.ok ()),
        { s with active := some pool, retired := s.retired ++ s.active.toList })
  | acquiring =>
      match s.active with
      | some pool => (connecting pool, s)
      | none => (acquired (.error unavailable), s)
  | connecting pool =>
      if s.retired.contains pool then (acquired (.error gone), s)
      else (acquired (.ok pool), s)
  | closing => (closed, { s with active := none, retired := s.retired ++ s.active.toList })
  | c => (c, s)

/-- A call that runs alone to its end; no call takes more than three steps. -/
def Call.run (reply : Reply) (c : Call) (s : DataSource) : Call × DataSource :=
  let (c, s) := c.step reply s
  let (c, s) := c.step reply s
  c.step reply s

/-! ### Whole calls -/

/-- Opens and tests a pool and makes it the active one. -/
def configure (reply : Reply) (b : Backend) (s : DataSource) :
    Except Failure Unit × DataSource :=
  match (Call.configuring b).run reply s with
  | (.configured result, s) => (result, s)
  | (_, s) => (.error unavailable, s)

/-- Takes a connection of the active pool. -/
def acquire (s : DataSource) : Except Failure Pool :=
  match Call.acquiring.run ⟨.ok (), .ok ()⟩ s with
  | (.acquired result, _) => result
  | _ => .error unavailable

/-- Takes the active pool away and hands it to a close. -/
def close (s : DataSource) : DataSource := (Call.closing.run ⟨.ok (), .ok ()⟩ s).2

/-- Whether a pool is active. -/
def isConfigured (s : DataSource) : Bool := s.active.isSome

/-- The dialect of the active pool. -/
def dialect? (s : DataSource) : Option Dialect := s.active.map Pool.dialect

/-! ### Calls in any order -/

/-- A data source and the calls on it. -/
structure Run where
  source : DataSource
  calls : List Call

/-- What happens next: a call starts, or one takes a step. -/
inductive Event where
  | starts (call : Call)
  | steps (call : Nat) (reply : Reply)

/-- What an event does. Calls start at their beginning. -/
def Run.next (r : Run) : Event → Run
  | .starts (.configuring b) => { r with calls := r.calls ++ [.configuring b] }
  | .starts .acquiring => { r with calls := r.calls ++ [.acquiring] }
  | .starts .closing => { r with calls := r.calls ++ [.closing] }
  | .starts _ => r
  | .steps i reply =>
      match r.calls[i]? with
      | none => r
      | some c =>
          let (c, source) := c.step reply r.source
          ⟨source, r.calls.set i c⟩

/-- What a list of events does to a data source on which nothing was called. -/
def Run.of (events : List Event) : Run := events.foldl Run.next ⟨{}, []⟩

end DataSource

end RealmDirectory
