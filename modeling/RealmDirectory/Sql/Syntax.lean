import RealmDirectory.Sql.Affinity
import RealmDirectory.Sql.Function

/-!
# Statements

The statements that the database understands: queries over at most one table or inner
query, combinations of queries, and the statements that create, drop and change tables.
An expression is generic in what stands for a column: a name as it is written, or the
column that the name was found to mean.

## Main definitions

* `Expr`: expressions.
* `Query`: a query and what it reads from.
* `Command`: a statement.
-/

namespace RealmDirectory.Sql

/-! ### Expressions -/

/-- How two values are compared. -/
inductive Comparison where
  | eq
  | ne
  | lt
  | le
  | gt
  | ge
  deriving DecidableEq, Repr

/-- Whether an order of two values satisfies a comparison. -/
def Comparison.holds : Comparison → Ordering → Bool
  | eq, o => o == .eq
  | ne, o => o != .eq
  | lt, o => o == .lt
  | le, o => o != .gt
  | gt, o => o == .gt
  | ge, o => o != .lt

/-- A column as it is written. -/
structure ColumnName where
  /-- The table in front of the point. -/
  table : Option (List Char) := none
  column : List Char
  /-- In double quotes, a name that means no column is a text. -/
  quoted : Bool := false
  deriving DecidableEq, Repr

/-- An expression over columns `ν`. -/
inductive Expr (ν : Type) where
  | literal (v : Value)
  /-- The value bound to a mark, counted from zero. -/
  | mark (index : Nat)
  | column (c : ν)
  /-- The value itself, no longer a column. -/
  | positive (e : Expr ν)
  | negative (e : Expr ν)
  /-- The opposite of every bit. -/
  | complement (e : Expr ν)
  | not (e : Expr ν)
  | and (a b : Expr ν)
  | or (a b : Expr ν)
  | compare (c : Comparison) (a b : Expr ν)
  /-- Equality that takes NULL for a value. -/
  | same (a b : Expr ν)
  /-- Whether a condition has a certain outcome, which NULL has not. -/
  | outcome (wanted : Bool) (e : Expr ν)
  /-- Equality with one of several values. -/
  | among (e : Expr ν) (l : List (Expr ν))
  | operate (o : Operator) (a b : Expr ν)
  /-- The two texts one after the other. -/
  | append (a b : Expr ν)
  | like (subject pattern : Expr ν)
  | likeEscape (subject pattern escape : Expr ν)
  /-- One of two values, as a condition holds or not. -/
  | choose (condition yes no : Expr ν)
  | cast (e : Expr ν) (kind : Affinity)
  | collate (e : Expr ν) (c : Collation)
  | call (f : Function) (arguments : List (Expr ν))
  /-- The number of rows. -/
  | countRows
  | aggregate (f : Aggregate) (once : Bool) (arguments : List (Expr ν))

instance {ν : Type} : Inhabited (Expr ν) := ⟨.literal .null⟩

/-! ### Queries -/

/-- What a query selects. -/
inductive Item (ν : Type) where
  /-- Every column. -/
  | everything
  /-- Every column of a table. -/
  | table (name : List Char)
  /-- A value; its label when it is not a plain column. -/
  | value (e : Expr ν) (label : Option (List Char)) (written : List Char)

/-- One key of an order. -/
structure SortKey (ν : Type) where
  key : Expr ν
  descending : Bool
  /-- Whether NULL comes first; it does when the order ascends and nothing is said. -/
  nullsFirst : Bool

/-- The order of an answer and the part of it that is kept. -/
structure Arrangement where
  order : List (SortKey ColumnName)
  limit : Option (Expr ColumnName)
  offset : Option (Expr ColumnName)

/-- The arrangement that leaves everything as it comes. -/
def Arrangement.none : Arrangement := ⟨[], .none, .none⟩

/-- A query but for what it reads from. -/
structure Body where
  distinct : Bool
  items : List (Item ColumnName)
  condition : Option (Expr ColumnName)
  /-- The values that the rows of a group share. -/
  grouping : List (Expr ColumnName)
  groupCondition : Option (Expr ColumnName)
  arrangement : Arrangement

/-- How the answers of two queries are combined. -/
inductive Combining where
  /-- The rows of both, repeated ones kept. -/
  | append
  | union
  | except
  | intersect
  deriving DecidableEq, Repr

/-- A query. -/
inductive Query where
  /-- A query of a single row without columns. -/
  | ofNothing (body : Body)
  | ofTable (body : Body) (table : List Char) (alias? : Option (List Char))
  | ofQuery (body : Body) (inner : Query) (alias? : Option (List Char))
  | ofRows (rows : List (List (Expr ColumnName)))
  | combined (how : Combining) (left right : Query) (arrangement : Arrangement)

/-! ### Commands -/

/-- A column of a table. -/
structure ColumnDef where
  name : List Char
  /-- The declared type. -/
  declared : List Char
  primaryKey : Bool := false
  notNull : Bool := false
  unique : Bool := false
  collation : Collation := .binary
  deriving DecidableEq, Repr

/-- A statement. -/
inductive Command where
  | query (q : Query)
  | createTable (name : List Char) (columns : List ColumnDef) (unlessPresent : Bool)
  | dropTable (name : List Char) (ifPresent : Bool)
  | insert (table : List Char) (columns : Option (List (List Char)))
      (rows : List (List (Expr ColumnName)))
  | update (table : List Char) (changes : List (List Char × Expr ColumnName))
      (condition : Option (Expr ColumnName))
  | delete (table : List Char) (condition : Option (Expr ColumnName))

end RealmDirectory.Sql
