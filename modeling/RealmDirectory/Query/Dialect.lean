import RealmDirectory.Failure
import RealmDirectory.Query.Statement

/-!
# Dialects

The families of databases in which a directory can be kept, and what differs between
them: their names, the schemes of their connection URLs, the statement that tests a
connection, the clause that selects a page, and the marks of bound values.

## Main definitions

* `Dialect.ofName`: a dialect by its key or its description.
* `Dialect.pageClause`, `Dialect.paginate`: the statement for one page of rows.
* `Dialect.bindMarks`: the statement with the dialect's own marks.
-/

namespace RealmDirectory

/-- A family of databases. -/
inductive Dialect where
  | postgreSql
  | mySql
  | sqlite
  | oracle
  | sqlServer
  | db2
  deriving DecidableEq, Repr

namespace Dialect

/-- Every dialect. -/
def all : List Dialect := [postgreSql, mySql, sqlite, oracle, sqlServer, db2]

/-- The short name under which configurations know a dialect. -/
def key : Dialect → String
  | postgreSql => "postgresql"
  | mySql => "mysql"
  | sqlite => "sqlite"
  | oracle => "oracle"
  | sqlServer => "sqlserver"
  | db2 => "db2"

/-- The name that people read. -/
def description : Dialect → String
  | postgreSql => "PostgreSQL 12+"
  | mySql => "MySQL 8+"
  | sqlite => "SQLite 3"
  | oracle => "Oracle 19+"
  | sqlServer => "MS SQL Server 2012+"
  | db2 => "DB2 10+"

/-- A statement that succeeds on every live connection. -/
def testQuery : Dialect → String
  | oracle => "SELECT 1 FROM DUAL"
  | db2 => "SELECT 1 FROM SYSIBM.SYSDUMMY1"
  | _ => "SELECT 1"

/-- The schemes of the connection URLs. -/
def urlSchemes : Dialect → List String
  | postgreSql => ["postgres", "postgresql"]
  | mySql => ["mysql", "mariadb"]
  | sqlite => ["sqlite"]
  | oracle => ["oracle"]
  | sqlServer => ["mssql", "sqlserver"]
  | db2 => ["db2"]

/-- Whether a driver for the dialect is at hand. -/
def isExecutable : Dialect → Bool
  | postgreSql | mySql | sqlite => true
  | oracle | sqlServer | db2 => false

/-- The dialect with a key or description, in either case of its letters and with blanks
around it. -/
def ofName (name : String) : Except Failure Dialect :=
  let name := Text.trim name
  match all.find? fun d =>
      Text.sameLetters d.key name || Text.sameLetters d.description name with
  | some d => .ok d
  | none => .error (.configuration ("Unsupported RDBMS: " ++ name))

/-- A number as it stands in a statement. -/
def number (n : Nat) : String := String.ofList (Text.decimal n)

/-- The clause that skips `offset` rows and keeps the next `limit`. -/
def pageClause (d : Dialect) (offset limit : Nat) : String :=
  match d with
  | postgreSql | sqlite => " LIMIT " ++ number limit ++ " OFFSET " ++ number offset
  | mySql => " LIMIT " ++ number offset ++ ", " ++ number limit
  | oracle | db2 | sqlServer =>
      " OFFSET " ++ number offset ++ " ROWS FETCH NEXT " ++ number limit ++ " ROWS ONLY"

/-- The ordering that the page clause of a dialect needs and the statement lacks. -/
def addedOrder (d : Dialect) (statement : String) : String :=
  match d with
  | sqlServer =>
      if Statement.hasOrderBy (Statement.topLevel statement.toList) then ""
      else " ORDER BY (SELECT NULL)"
  | _ => ""

/-- The statement for the rows behind `offset`, at most `limit` of them. -/
def paginate (d : Dialect) (statement : String) (offset limit : Nat) : String :=
  statement ++ d.addedOrder statement ++ d.pageClause offset limit

/-- The statement with the dialect's own marks in place of `?`. -/
def bindMarks (d : Dialect) (statement : String) : String :=
  match d with
  | postgreSql => Statement.numberMarks statement
  | _ => statement

end Dialect

end RealmDirectory
