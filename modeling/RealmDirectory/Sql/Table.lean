import RealmDirectory.Sql.Scope

/-!
# Tables

A table holds rows under row numbers, in ascending order of the numbers. A primary key
that is declared `INTEGER` is the row number itself: without a value the row gets the
number after the greatest one.

## Main definitions

* `Table.insertRow?`, `Table.erase`: adding and removing a row.
* `Table.columnsAs`: the columns of a table under a name.
-/

namespace RealmDirectory.Sql

/-- A table. -/
structure Table where
  name : List Char
  defs : List ColumnDef
  /-- The rows under their numbers, which ascend. -/
  rows : List (Int64 × List Value)
  deriving Repr

namespace Table

/-- Whether a column is the row number. -/
def isRowNumber (d : ColumnDef) : Bool :=
  d.primaryKey && sameName (Text.dropEndWhile isSpace d.declared) "integer".toList

/-- The affinity of a column. -/
def affinityOf (d : ColumnDef) : Affinity := Affinity.ofDeclared d.declared

/-- The name of the row number: that of the column which is the row number. -/
def numberName (t : Table) : List Char :=
  ((t.defs.find? isRowNumber).map ColumnDef.name).getD "rowid".toList

/-- The columns of the table under a name, with the hidden one behind them. -/
def columnsAs (t : Table) (name : List Char) : List Column :=
  (t.defs.map fun d =>
    { table := name, name := d.name, affinity := affinityOf d, collation := d.collation }) ++
    [{ table := name, name := t.numberName, affinity := .integer, hidden := true }]

/-- The values of a numbered row in the columns of the table. -/
def cells (r : Int64 × List Value) : List Value := r.2 ++ [.integer r.1]

/-- The place of a column with a name. -/
def indexOf? (t : Table) (name : List Char) : Option Nat :=
  t.defs.findIdx? fun d => sameName d.name name

/-- The number after the greatest row number. -/
def nextNumber (t : Table) : Int64 :=
  match t.rows.getLast? with
  | some r => r.1 + 1
  | none => 1

/-- The row number that a row asks for: the value of the column that is the row number, or
the next number. -/
def numberFor (t : Table) (values : List Value) : Except Fault Int64 :=
  match t.defs.findIdx? isRowNumber with
  | none => .ok t.nextNumber
  | some i =>
      match values.getD i .null with
      | .null => .ok t.nextNumber
      | .integer n => .ok n
      | _ => .error .mismatch

/-- The values as the columns keep them. -/
def kept (t : Table) (values : List Value) : List Value :=
  List.zipWith (fun d v => (affinityOf d).apply v) t.defs values

/-- The values with the row number in its column. -/
def numbered (t : Table) (number : Int64) (values : List Value) : List Value :=
  List.zipWith (fun d v => if isRowNumber d then .integer number else v) t.defs values

/-- Whether a row of the table has a value in a column, NULL aside. -/
def hasValue (t : Table) (index : Nat) (v : Value) : Bool :=
  let collation := (t.defs[index]?.map ColumnDef.collation).getD .binary
  v != .null && t.rows.any fun r => collation.compare (r.2.getD index .null) v == .eq

/-- Refuses the value of a column that breaks a constraint of it. -/
def checkCell (t : Table) (index : Nat) (d : ColumnDef) (v : Value) : Except Fault Unit :=
  if d.notNull && v == .null then .error (.missingValue d.name)
  else if (d.unique || d.primaryKey) && t.hasValue index v then .error (.notUnique d.name)
  else .ok ()

/-- Refuses the values of a row that break a constraint, from a column on. -/
def checkRow (t : Table) : Nat → List ColumnDef → List Value → Except Fault Unit
  | index, d :: defs, v :: values => do
      t.checkCell index d v
      t.checkRow (index + 1) defs values
  | _, _, _ => .ok ()

/-- Puts a row among rows with ascending numbers. -/
def place (number : Int64) (values : List Value) :
    List (Int64 × List Value) → List (Int64 × List Value)
  | [] => [(number, values)]
  | r :: rest =>
      if number < r.1 then (number, values) :: r :: rest
      else r :: place number values rest

/-- Adds a row with one value for each column. -/
def insertRow? (t : Table) (values : List Value) : Except Fault Table := do
  let values := t.kept values
  let number ← t.numberFor values
  let values := t.numbered number values
  t.checkRow 0 t.defs values
  return { t with rows := place number values t.rows }

/-- Puts a row in the place of the row with a number, which was removed. It keeps the
number unless the column that is the row number says otherwise. -/
def replaceRow? (t : Table) (number : Int64) (values : List Value) : Except Fault Table := do
  let values := t.kept values
  let number ← match t.defs.findIdx? isRowNumber with
    | none => .ok number
    | some i =>
        match values.getD i .null with
        | .integer n => .ok n
        | _ => .error .mismatch
  t.checkRow 0 t.defs values
  return { t with rows := place number values t.rows }

/-- Removes the row with a number. -/
def erase (t : Table) (number : Int64) : Table :=
  { t with rows := t.rows.filter fun r => r.1 != number }

end Table

end RealmDirectory.Sql
