import RealmDirectory.Sql.Evaluation
import RealmDirectory.Sql.Table

/-!
# Queries

A query answers with a relation: columns and rows. It takes the rows of its source that
satisfy its condition, selects values from each of them, or from each group of them when
there are groups, drops repeated rows when asked, brings the rest into order, and keeps
those within its bounds. All rows are one group when a function of a group is selected
and nothing is said about groups.

## Main definitions

* `Relation`: columns and rows.
* `Body.answer`: the answer of a query on its source.
* `Query.answer`: the answer of a query on tables.
-/

namespace RealmDirectory.Sql

/-- Columns and rows with a value for each column. -/
structure Relation where
  columns : List Column
  rows : List (List Value)

/-- A selected value with the label of its column. -/
structure Selected where
  term : Term
  label : List Char

/-! ### Selected values -/

namespace Item

/-- The values of the columns that satisfy a condition, from a place on. -/
def columnsFrom (wanted : Column → Bool) : Nat → List Column → List Selected
  | _, [] => []
  | i, c :: l =>
      let rest := columnsFrom wanted (i + 1) l
      if wanted c && !c.hidden then ⟨.column ⟨i, c.affinity, c.collation⟩, c.name⟩ :: rest
      else rest

/-- The label of a value that has no name of its own: that of its column, or its text. -/
def labelOf (s : Scope) (written : List Char) : Term → List Char
  | .column c => ((s.columns[c.index]?).map Column.name).getD written
  | _ => written

/-- The values that an item selects. -/
def selected (s : Scope) : Item ColumnName → Except Fault (List Selected)
  | .everything =>
      if s.columns.isEmpty then .error .syntaxError
      else .ok (columnsFrom (fun _ => true) 0 s.columns)
  | .table name =>
      match columnsFrom (fun c => sameName c.table name) 0 s.columns with
      | [] => .error (.noSuchTable name)
      | l => .ok l
  | .value e label written => do
      let t ← s.resolve true e
      return [⟨t, label.getD (labelOf s written t)⟩]

/-- The values that items select. -/
def allSelected (s : Scope) (items : List (Item ColumnName)) : Except Fault (List Selected) := do
  return (← items.mapM (selected s)).flatten

end Item

/-! ### Order -/

namespace SortKey

/-- The greatest number that is read as a position; a greater one is a value. -/
def greatestPosition : Int64 := 0x7FFFFFFF

/-- The position that an expression asks for. -/
def position? {ν : Type} : Expr ν → Option Int64
  | .literal (.integer n) =>
      if -greatestPosition ≤ n ∧ n ≤ greatestPosition then some n else none
  | _ => none

/-- The selected value at a position, counted from 1. -/
def position (selected : List Selected) (n : Int64) : Except Fault Selected :=
  match if 1 ≤ n then selected[n.toNatClampNeg - 1]? else none with
  | some v => .ok v
  | none => .error .positionOutOfRange

/-- The expression of a key: a position of the selected values, one of their labels, or an
expression on the rows. -/
def term (s : Scope) (selected : List Selected) (k : SortKey ColumnName) :
    Except Fault Term :=
  match position? k.key, k.key with
  | some n, _ => (position selected n).map Selected.term
  | none, .column c =>
      match s.label? c with
      | some t => .ok t
      | none => s.meaning c
  | none, e => s.resolve true e

/-- The order of two values by a key, which is read in a manner. -/
def compare (k : SortKey ColumnName) (m : Manner) (a b : Value) : Ordering :=
  match a, b with
  | .null, .null => .eq
  | .null, _ => if k.nullsFirst then .lt else .gt
  | _, .null => if k.nullsFirst then .gt else .lt
  | a, b =>
      let order := (m.collation.getD .binary).compare a b
      if k.descending then order.swap else order

/-- The order of two rows by the values of their keys. -/
def compareRows : List (SortKey ColumnName × Manner) → List Value → List Value → Ordering
  | k :: ks, a :: as, b :: bs => (compare k.1 k.2 a b).then (compareRows ks as bs)
  | _, _, _ => .eq

end SortKey

/-! ### Bounds -/

/-- The whole number that a bound of a query stands for. -/
def boundOf (bound : List Value) (e : Option (Expr ColumnName)) :
    Except Fault (Option Int64) :=
  match e with
  | none => .ok none
  | some e => do
      let t ← Scope.empty.resolve false e
      match Affinity.numeric.apply (← Term.value ⟨[], [], bound⟩ t) with
      | .integer n => return some n
      | _ => throw .mismatch

/-- The rows within bounds: a negative number of rows to keep keeps all of them, and a
negative number to skip skips none. -/
def within {α : Type} (limit offset : Option Int64) (rows : List α) : List α :=
  let rows := rows.drop (offset.getD 0).toNatClampNeg
  match limit with
  | some n => if n < 0 then rows else rows.take n.toNatClampNeg
  | none => rows

/-- The list without what it repeats, the first of each kept. -/
def firstOf {α : Type} (same : α → α → Bool) : List α → List α → List α
  | _, [] => []
  | seen, a :: l =>
      if seen.any (same a) then firstOf same seen l else a :: firstOf same (a :: seen) l

/-- The order of two rows by their values, each compared by a collation. -/
def compareValues (collations : List Collation) (a b : List Value) : Ordering :=
  match collations, a, b with
  | c :: cs, x :: xs, y :: ys => (c.compare x y).then (compareValues cs xs ys)
  | _, _, _ => .eq

/-- Rows in the order of their values. -/
def inOrder {α : Type} (collations : List Collation) (values : α → List Value)
    (rows : List α) : List α :=
  rows.mergeSort fun x y => compareValues collations (values x) (values y) != .gt

/-! ### Groups -/

/-- Rows with their keys, of which neighbours with the same keys are put together. -/
def neighbours (same : List Value → List Value → Bool) :
    List (List Value × List Value) → List (List (List Value))
  | [] => []
  | (k, row) :: l =>
      match l, neighbours same l with
      | (k', _) :: _, g :: groups =>
          if same k k' then (row :: g) :: groups else [row] :: g :: groups
      | _, groups => [row] :: groups

/-- The groups of rows with the same keys, in the order of the keys. -/
def groups (collations : List Collation) (rows : List (List Value × List Value)) :
    List (List (List Value)) :=
  neighbours (fun a b => compareValues collations a b == .eq)
    (inOrder collations Prod.fst rows)

/-- The row of a group that plain columns are taken from: the first one with the extreme
when an extreme is asked for, and else the last. -/
def speaker (bound : List Value) (terms : List Term) (group : List (List Value)) :
    Except Fault (List Value) := do
  let last := group.getLast?.getD []
  match terms.findSome? extremeTerm? with
  | none => return last
  | some (wanted, e) =>
      let values ← group.mapM fun row => Term.value ⟨row, [], bound⟩ e
      let best := Aggregate.extreme wanted (values.filter (· != .null))
      let found := (group.zip values).find? fun p => Value.compare p.2 best == .eq
      return (found.map Prod.fst).getD last
where
  /-- The extreme that an expression asks for. -/
  extremeTerm? : Term → Option (Ordering × Term)
    | .aggregate .min _ [e] => some (.lt, e)
    | .aggregate .max _ [e] => some (.gt, e)
    | _ => none

/-! ### Queries -/

/-- Evaluates terms on a row of a group. -/
def evaluate (bound : List Value) (terms : List Term) (group : List (List Value))
    (row : List Value) : Except Fault (List Value) :=
  Term.values ⟨row, group, bound⟩ terms

/-- The collation in which an expression is compared. -/
def collationOf (t : Term) : Collation := t.manner.collation.getD .binary

/-- The column of a selected value. -/
def columnOf (v : Selected) : Column :=
  { table := [], name := v.label, affinity := v.term.affinity,
    collation := collationOf v.term }

/-- The key of a group: a position of the selected values, or an expression. -/
def groupKey (s : Scope) (selected : List Selected) (e : Expr ColumnName) :
    Except Fault Term :=
  match SortKey.position? e with
  | some n => do
      let v ← SortKey.position selected n
      if v.term.isAggregate then .error .misplacedAggregate else .ok v.term
  | none => s.resolve false e

/-- The values of terms on every group of rows that satisfies a condition. -/
def answersOfGroups (bound : List Value) (terms keys : List Term) (condition : Option Term)
    (rows : List (List Value)) : Except Fault (List (List Value)) := do
  let found ← if keys.isEmpty then pure [rows] else do
    let keyed ← rows.mapM fun row => do return (← evaluate bound keys [] row, row)
    pure (groups (keys.map collationOf) keyed)
  let wanted := terms ++ condition.toList
  let answers ← found.mapM fun group => do
    let row ← speaker bound wanted group
    return (← Term.holds ⟨row, group, bound⟩ condition, ← evaluate bound terms group row)
  return (answers.filter Prod.fst).map Prod.snd

/-- The answer of a query on its source. -/
def Body.answer (b : Body) (bound : List Value) (source : Relation) :
    Except Fault Relation := do
  let scope : Scope := ⟨source.columns, []⟩
  let selected ← Item.allSelected scope b.items
  let labelled : Scope := ⟨source.columns, selected.map fun v => (v.label, v.term)⟩
  let condition ← labelled.resolve? false b.condition
  let groupKeys ← b.grouping.mapM (groupKey labelled selected)
  let groupCondition ← labelled.resolve? true b.groupCondition
  let keys ← b.arrangement.order.mapM (SortKey.term labelled selected)
  let limit ← boundOf bound b.arrangement.limit
  let offset ← boundOf bound b.arrangement.offset
  let rows ← source.rows.filterM fun row => Term.holds ⟨row, [], bound⟩ condition
  let terms := selected.map Selected.term
  let all := terms ++ keys
  let isGrouped := Term.anyAggregate (all ++ groupCondition.toList) || !groupKeys.isEmpty
  if groupCondition.isSome && !isGrouped then throw .misplacedAggregate
  let results ←
    if isGrouped then answersOfGroups bound all groupKeys groupCondition rows
    else rows.mapM (evaluate bound all [])
  let split := results.map fun r => (r.take terms.length, r.drop terms.length)
  let same (x y : List Value) : Bool := compareValues (terms.map collationOf) x y == .eq
  let once := if b.distinct then firstOf (fun x y => same x.1 y.1) [] split else split
  let directions := b.arrangement.order.zip (keys.map Term.manner)
  let sorted := once.mergeSort fun x y => SortKey.compareRows directions x.2 y.2 != .gt
  return {
    columns := selected.map columnOf
    rows := (within limit offset sorted).map Prod.fst }

/-- The table with a name. -/
def findTable (tables : List Table) (name : List Char) : Except Fault Table :=
  match tables.find? fun t => sameName t.name name with
  | some t => .ok t
  | none => .error (.noSuchTable name)

/-! ### Combined queries -/

/-- The rows of two answers combined: only appending keeps what repeats, and the other ways
bring the rows into the order of their values. -/
def combinedRows (how : Combining) (collations : List Collation)
    (left right : List (List Value)) : List (List Value) :=
  let same (a b : List Value) : Bool := compareValues collations a b == .eq
  let distinct (l : List (List Value)) : List (List Value) :=
    inOrder collations id (firstOf same [] l)
  match how with
  | .append => left ++ right
  | .union => distinct (left ++ right)
  | .except => distinct (left.filter fun a => !right.any (same a))
  | .intersect => distinct (left.filter fun a => right.any (same a))

/-- The place of the selected value that a key of combined queries names. -/
def selectedPlace (columns : List Column) (k : SortKey ColumnName) : Except Fault Nat :=
  match k.key with
  | .literal (.integer n) =>
      if 1 ≤ n ∧ n.toNatClampNeg ≤ columns.length then .ok (n.toNatClampNeg - 1)
      else .error .positionOutOfRange
  | .column ⟨none, name, _⟩ =>
      match columns.findIdx? fun c => sameName c.name name with
      | some i => .ok i
      | none => .error .orderNotSelected
  | _ => .error .orderNotSelected

/-- Rows brought into an arrangement by the values that are selected. -/
def Arrangement.applyTo (a : Arrangement) (bound : List Value) (r : Relation) :
    Except Fault Relation := do
  let places ← a.order.mapM (selectedPlace r.columns)
  let limit ← boundOf bound a.limit
  let offset ← boundOf bound a.offset
  let manners := places.map fun i =>
    match r.columns[i]? with
    | some c => Manner.mk c.affinity (some c.collation)
    | Option.none => ⟨.none, Option.none⟩
  let keys (row : List Value) : List Value := places.map fun i => row.getD i .null
  let sorted := r.rows.mergeSort fun x y =>
    SortKey.compareRows (a.order.zip manners) (keys x) (keys y) != .gt
  return { r with rows := within limit offset sorted }

/-- Labels of which none repeats one before it: one that does gets a number behind a
colon. -/
def distinctLabels (seen : List (List Char)) : List Column → List Column
  | [] => []
  | c :: l =>
      let taken (n : List Char) : Bool := seen.any (sameName n)
      let numbered (i : Nat) : List Char := c.name ++ ':' :: Text.decimal i
      let free := (List.range (seen.length + 1)).find? fun i => !taken (numbered (i + 1))
      let name := if taken c.name then numbered (free.getD 0 + 1) else c.name
      { c with name } :: distinctLabels (name :: seen) l

/-- The label of a column of rows that are written out. -/
def placeLabel (i : Nat) : List Char := "column".toList ++ Text.decimal (i + 1)

/-- The answer of a query on tables. -/
def Query.answer (tables : List Table) (bound : List Value) : Query → Except Fault Relation
  | .ofNothing b => b.answer bound ⟨[], [[]]⟩
  | .ofTable b name second => do
      let t ← findTable tables name
      b.answer bound ⟨t.columnsAs (second.getD t.name), t.rows.map Table.cells⟩
  | .ofQuery b inner second => do
      let r ← inner.answer tables bound
      let table := second.getD []
      let columns := (distinctLabels [] r.columns).map fun c => { c with table }
      b.answer bound { r with columns }
  | .ofRows rows => do
      let width := (rows.head?.map List.length).getD 0
      if rows.any fun r => r.length != width then throw .wrongValueCount
      let terms ← rows.mapM (Scope.empty.resolveAll false)
      let column (i : Nat) : Column := { table := [], name := placeLabel i, affinity := .none }
      return {
        columns := (List.range width).map column
        rows := ← terms.mapM fun r => evaluate bound r [] [] }
  | .combined how left right arrangement => do
      let l ← left.answer tables bound
      let r ← right.answer tables bound
      if l.columns.length != r.columns.length then throw .wrongColumnCount
      let rows := combinedRows how (l.columns.map Column.collation) l.rows r.rows
      arrangement.applyTo bound { l with rows }

end RealmDirectory.Sql
