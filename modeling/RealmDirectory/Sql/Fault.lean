/-!
# Faults of statements

What can be wrong with a statement. Some faults are found before a statement runs, from
its text and the tables alone; the others depend on the values it meets.
-/

namespace RealmDirectory.Sql

/-- Why a statement fails. -/
inductive Fault where
  /-- The text is no statement. -/
  | syntaxError
  | noSuchTable (name : List Char)
  | noSuchColumn (name : List Char)
  | tableExists (name : List Char)
  /-- Two columns of a table have one name. -/
  | duplicateColumn (name : List Char)
  /-- A function of a group stands outside of a group. -/
  | misplacedAggregate
  /-- An order names a position that the query does not select. -/
  | positionOutOfRange
  /-- An order of combined queries names no value that they select. -/
  | orderNotSelected
  /-- There are more or fewer values than columns. -/
  | wrongValueCount
  /-- Combined queries select different numbers of values. -/
  | wrongColumnCount
  /-- A value is not of the kind that is needed. -/
  | mismatch
  /-- A whole number has more than 64 bits. -/
  | overflow
  /-- A value repeats where it must not. -/
  | notUnique (column : List Char)
  /-- A value is missing. -/
  | missingValue (column : List Char)
  /-- An escape is not one character. -/
  | badEscape
  /-- A pattern is too long. -/
  | longPattern
  deriving DecidableEq, Repr

namespace Fault

/-- Whether a statement with the fault is refused before it runs. -/
def beforeRunning : Fault → Bool
  | mismatch | overflow | notUnique _ | missingValue _ | badEscape | longPattern => false
  | _ => true

/-- The text of a fault. -/
def message : Fault → String
  | syntaxError => "syntax error"
  | noSuchTable name => "no such table: " ++ String.ofList name
  | noSuchColumn name => "no such column: " ++ String.ofList name
  | tableExists name => "table " ++ String.ofList name ++ " already exists"
  | duplicateColumn name => "duplicate column name: " ++ String.ofList name
  | misplacedAggregate => "misuse of aggregate"
  | positionOutOfRange => "ORDER BY term out of range"
  | orderNotSelected => "ORDER BY term does not match any column in the result set"
  | wrongValueCount => "values do not match columns"
  | wrongColumnCount => "SELECTs do not have the same number of result columns"
  | mismatch => "datatype mismatch"
  | overflow => "integer overflow"
  | notUnique column => "UNIQUE constraint failed: " ++ String.ofList column
  | missingValue column => "NOT NULL constraint failed: " ++ String.ofList column
  | badEscape => "ESCAPE expression must be a single character"
  | longPattern => "LIKE or GLOB pattern too complex"

end Fault

end RealmDirectory.Sql
