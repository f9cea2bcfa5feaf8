import RealmDirectory.Directory.Row
import RealmDirectory.Failure

/-!
# Connections

Directories reach their databases through a connection source. A source is given by what
it does to a state: acquiring a connection, fetching rows, and executing a statement. The
state is the database itself, or whatever else answers the statements, and it persists
when an operation fails.

A recorded source also keeps the statements that reached a connection.

## Main definitions

* `Session`: an operation on a state that may fail.
* `ConnectionSource`: where connections come from and what they answer.
* `Call`, `ConnectionSource.recorded`: a source that records its statements.
-/

namespace RealmDirectory

/-- An operation on a state that may fail; the state is kept either way. -/
abbrev Session (σ : Type) := ExceptT Failure (StateM σ)

/-- A source of connections to a database of states `σ`. Statements have `?` marks, and
the values are bound to them in order. -/
structure ConnectionSource (σ : Type) where
  /-- Takes a connection, which is given back at the end of the operation. -/
  acquire : Session σ Unit
  /-- Runs a statement for its rows. -/
  fetch : String → List String → Session σ (List Row)
  /-- Runs a statement for the number of rows that it changed. -/
  execute : String → List String → Session σ Nat

/-- What a statement was run for. -/
inductive Purpose where
  | rows
  | changes
  deriving DecidableEq, Repr

/-- A statement that reached a connection. -/
structure Call where
  /-- What it was run for. -/
  purpose : Purpose
  /-- The statement. -/
  statement : String
  /-- The values bound to its marks. -/
  values : List String
  deriving DecidableEq, Repr

namespace Session

variable {σ : Type}

/-- A result that does not depend on the state. -/
def ofExcept {α : Type} (result : Except Failure α) : Session σ α := fun state =>
  (result, state)

/-- Runs an operation on the first part of a larger state. -/
def onFirst {τ α : Type} (s : Session σ α) : Session (σ × τ) α := fun state =>
  let (result, first) := s state.1
  (result, (first, state.2))

end Session

namespace ConnectionSource

variable {σ : Type}

/-- Adds a call to the record of calls. -/
def note (c : Call) : Session (σ × List Call) Unit := fun state =>
  (.ok (), (state.1, state.2 ++ [c]))

/-- The source that also records every statement, whatever becomes of it. -/
def recorded (s : ConnectionSource σ) : ConnectionSource (σ × List Call) where
  acquire := s.acquire.onFirst
  fetch := fun statement values => do
    note ⟨.rows, statement, values⟩
    (s.fetch statement values).onFirst
  execute := fun statement values => do
    note ⟨.changes, statement, values⟩
    (s.execute statement values).onFirst

end ConnectionSource

end RealmDirectory
