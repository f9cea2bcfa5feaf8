import RealmDirectory.Directory.Row
import RealmDirectory.Sql.Parser
import RealmDirectory.Sql.Relation

/-!
# Databases

A database is a list of tables, with the number of rows that the last change of rows
reached. A text of commands is run command by command: each is read, refused or run
before the next one is read, and what earlier commands did stays when a later one fails.
A single command changes everything that it should, or nothing.

## Main definitions

* `Database.runCommand`: one command.
* `Database.fetch`: the rows that the commands of a text select.
* `Database.execute`: the number of rows that the commands of a text change.
-/

namespace RealmDirectory.Sql

/-- The tables of a database. -/
structure Database where
  tables : List Table
  /-- The number of rows that the last change of rows reached. -/
  changes : Nat
  deriving Repr

/-- What the commands of a text answered. -/
structure Outcome where
  rows : List Row
  changes : Nat

namespace Database

/-- The database without tables. -/
def empty : Database := ⟨[], 0⟩

instance : Inhabited Database := ⟨empty⟩

/-! ### Tables -/

/-- Puts a table in the place of the one with its name. -/
def setTable (d : Database) (t : Table) : Database :=
  { d with tables := d.tables.map fun u => if sameName u.name t.name then t else u }

/-- The first name that repeats an earlier one. -/
def repeated? : List (List Char) → Option (List Char)
  | [] => none
  | n :: l =>
      match l.find? (sameName n) with
      | some m => some m
      | none => repeated? l

/-- Creates a table. -/
def createTable (d : Database) (name : List Char) (defs : List ColumnDef)
    (unlessPresent : Bool) : Except Fault Database :=
  match findTable d.tables name with
  | .ok _ => if unlessPresent then .ok d else .error (.tableExists name)
  | .error _ =>
      match repeated? (defs.map ColumnDef.name) with
      | some n => .error (.duplicateColumn n)
      | none => .ok { d with tables := d.tables ++ [⟨name, defs, []⟩] }

/-- Drops a table. -/
def dropTable (d : Database) (name : List Char) (ifPresent : Bool) :
    Except Fault Database :=
  match findTable d.tables name with
  | .ok _ => .ok { d with tables := d.tables.filter fun t => !sameName t.name name }
  | .error f => if ifPresent then .ok d else .error f

/-! ### Rows -/

/-- The place of a column that has to be there. -/
def place (t : Table) (column : List Char) : Except Fault Nat :=
  match t.indexOf? column with
  | some i => .ok i
  | none => .error (.noSuchColumn column)

/-- A value for each of `count` columns: those at the given places, NULL at the others. -/
def spread (count : Nat) (places : List Nat) (values : List Value) : List Value :=
  (List.range count).map fun i =>
    match places.findIdx? (· == i) with
    | some k => values.getD k .null
    | none => .null

/-- Inserts rows, whose values are given for some columns or for all of them in order. -/
def insert (d : Database) (bound : List Value) (table : List Char)
    (columns : Option (List (List Char))) (rows : List (List (Expr ColumnName))) :
    Except Fault Database := do
  let t ← findTable d.tables table
  let places ← match columns with
    | some l => l.mapM (place t)
    | none => pure (List.range t.defs.length)
  if rows.any fun r => r.length != places.length then throw .wrongValueCount
  let terms ← rows.mapM (Scope.empty.resolveAll false)
  let filled ← terms.foldlM (fun t r => do
      let values ← evaluate bound r [] []
      t.insertRow? (spread t.defs.length places values)) t
  return { d.setTable filled with changes := rows.length }

/-- The rows of a table that satisfy a condition. -/
def matching (t : Table) (bound : List Value) (condition : Option Term) :
    Except Fault (List (Int64 × List Value)) :=
  t.rows.filterM fun r => Term.holds ⟨Table.cells r, [], bound⟩ condition

/-- Replaces the values at places of a row. -/
def replaced (values : List Value) (places : List Nat) (new : List Value) : List Value :=
  (places.zip new).foldl (fun l p => l.set p.1 p.2) values

/-- Changes the rows that satisfy a condition. Every new value is reckoned on the row as it
was. -/
def update (d : Database) (bound : List Value) (table : List Char)
    (changes : List (List Char × Expr ColumnName)) (condition : Option (Expr ColumnName)) :
    Except Fault Database := do
  let t ← findTable d.tables table
  let scope : Scope := ⟨t.columnsAs t.name, []⟩
  let places ← changes.mapM fun c => place t c.1
  let terms ← scope.resolveAll false (changes.map Prod.snd)
  let condition ← scope.resolve? false condition
  let rows ← matching t bound condition
  let changed ← rows.foldlM (fun t r => do
      let new ← evaluate bound terms [] (Table.cells r)
      (t.erase r.1).replaceRow? r.1 (replaced r.2 places new)) t
  return { d.setTable changed with changes := rows.length }

/-- Deletes the rows that satisfy a condition. -/
def delete (d : Database) (bound : List Value) (table : List Char)
    (condition : Option (Expr ColumnName)) : Except Fault Database := do
  let t ← findTable d.tables table
  let scope : Scope := ⟨t.columnsAs t.name, []⟩
  let condition ← scope.resolve? false condition
  let rows ← matching t bound condition
  return { d.setTable (rows.foldl (fun t r => t.erase r.1) t) with changes := rows.length }

/-! ### Commands -/

/-- The rows of a relation as they are handed out. -/
def handedOut (r : Relation) : List Row :=
  let labels := r.columns.map fun c => String.ofList c.name
  r.rows.map fun values => ⟨labels.zip (values.map Value.shown)⟩

/-- Runs one command: the rows that it selects, and the database after it. -/
def runCommand (d : Database) (bound : List Value) :
    Command → Except Fault (List Row × Database)
  | .query q => do return (handedOut (← q.answer d.tables bound), d)
  | .createTable name defs unlessPresent => do
      return ([], ← d.createTable name defs unlessPresent)
  | .dropTable name ifPresent => do return ([], ← d.dropTable name ifPresent)
  | .insert table columns rows => do return ([], ← d.insert bound table columns rows)
  | .update table changes condition => do
      return ([], ← d.update bound table changes condition)
  | .delete table condition => do return ([], ← d.delete bound table condition)

/-- The database after a command that failed: one that was running takes back the number of
rows, too. -/
def afterFault (d : Database) (c : Command) (f : Fault) : Database :=
  match c with
  | .query _ => d
  | _ => if f.beforeRunning then d else { d with changes := 0 }

/-- Runs at most `fuel` commands. -/
def runAll (bound : List Value) :
    Nat → ParserState → Outcome → Database → Except Fault Outcome × Database
  | 0, _, o, d => (.ok o, d)
  | fuel + 1, s, o, d =>
      match s.tokens with
      | [] => (.ok o, d)
      | t :: r =>
          if t.kind == .symbol [';'] then runAll bound fuel { s with tokens := r } o d
          else
            match Command.read? s with
            | none => (.error .syntaxError, d)
            | some (c, s) =>
                match d.runCommand bound c with
                | .error f => (.error f, d.afterFault c f)
                | .ok (rows, d) =>
                    runAll bound fuel s ⟨o.rows ++ rows, o.changes + d.changes⟩ d

/-- Runs the commands of a text with texts bound to its marks. -/
def run (d : Database) (text : String) (values : List String) :
    Except Fault Outcome × Database :=
  match Token.ofText? text.toList with
  | none => (.error .syntaxError, d)
  | some tokens =>
      let bound := values.map fun v => Value.text v.toList
      runAll bound tokens.length ⟨tokens, 0⟩ ⟨[], 0⟩ d

/-- The rows that the commands of a text select. -/
def fetch (d : Database) (text : String) (values : List String) :
    Except Fault (List Row) × Database :=
  let (outcome, d) := d.run text values
  (outcome.map Outcome.rows, d)

/-- The number of rows that the commands of a text change. A command that changes no rows
reports those of the change before it. -/
def execute (d : Database) (text : String) (values : List String) :
    Except Fault Nat × Database :=
  let (outcome, d) := d.run text values
  (outcome.map Outcome.changes, d)

end Database

end RealmDirectory.Sql
