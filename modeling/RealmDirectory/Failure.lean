/-!
# Failures

Every operation of the directory that can go wrong answers with a `Failure`: the
category that callers act on, and the detail that people read. The text of a failure is
its category's heading followed by the detail.

## Main definitions

* `DriverFault`: what a database driver reports.
* `Failure`: the categories, with `Failure.message` for the whole text.
* `Failure.status`: the HTTP status that answers a request with this failure.
-/

namespace RealmDirectory

/-- A fault that the database driver reports by itself. -/
inductive DriverFault where
  /-- A query for exactly one row found none. -/
  | rowNotFound
  /-- No connection became free in time. -/
  | poolTimedOut
  /-- The pool was closed before. -/
  | poolClosed
  /-- The worker behind a connection is gone. -/
  | workerCrashed
  /-- A row has no such column. -/
  | columnNotFound (name : String)
  /-- The server sent something unexpected. -/
  | protocol (detail : String)
  deriving DecidableEq, Repr

/-- The text of a driver fault. -/
def DriverFault.message : DriverFault → String
  | rowNotFound =>
      "no rows returned by a query that expected to return at least one row"
  | poolTimedOut => "pool timed out while waiting for an open connection"
  | poolClosed => "attempted to acquire a connection on a closed pool"
  | workerCrashed => "attempted to communicate with a crashed background worker"
  | columnNotFound name => "no column found for name: " ++ name
  | protocol detail => "encountered unexpected or invalid data: " ++ detail

/-- Why an operation of the directory failed. -/
inductive Failure where
  /-- The database refused a connection or a statement. -/
  | database (detail : String)
  /-- The driver failed by itself. -/
  | driver (fault : DriverFault)
  /-- The request cannot be understood. -/
  | badRequest (detail : String)
  /-- A computation failed inside the directory. -/
  | internal (detail : String)
  /-- The configuration cannot be used. -/
  | configuration (detail : String)
  /-- A stored password hash cannot be read. -/
  | malformedHash (detail : String)
  /-- The directory cannot be reached now. -/
  | unavailable (detail : String)
  /-- The directory does not offer the operation. -/
  | notSupported (detail : String)
  /-- There is no such thing. -/
  | notFound (detail : String)
  deriving DecidableEq, Repr

namespace Failure

/-- The heading of a failure's category. -/
def heading : Failure → String
  | database _ => "Database error: "
  | driver _ => "Database driver error: "
  | badRequest _ => "Bad request: "
  | internal _ => "Internal error: "
  | configuration _ => "Configuration error: "
  | malformedHash _ => "Malformed password hash: "
  | unavailable _ => "Directory unavailable: "
  | notSupported _ => "Not supported: "
  | notFound _ => "Not found: "

/-- The detail of a failure, without its category. -/
def detail : Failure → String
  | database d | badRequest d | internal d | configuration d | malformedHash d
  | unavailable d | notSupported d | notFound d => d
  | driver f => f.message

/-- The whole text of a failure. -/
def message (f : Failure) : String := f.heading ++ f.detail

/-- Whether the same call may succeed later. -/
def isTransient : Failure → Bool
  | database _ | driver _ | unavailable _ => true
  | _ => false

/-- Whether another component reported the cause. -/
def hasSource : Failure → Bool
  | driver _ => true
  | _ => false

/-- The HTTP status that answers a request with this failure. -/
def status : Failure → Nat
  | database _ | driver _ | internal _ | configuration _ | malformedHash _ => 500
  | badRequest _ => 400
  | unavailable _ => 503
  | notSupported _ => 501
  | notFound _ => 404

end Failure

end RealmDirectory
