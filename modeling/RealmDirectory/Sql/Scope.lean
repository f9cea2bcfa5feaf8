import RealmDirectory.Sql.Syntax

/-!
# Scopes

A scope is the list of columns that the names of an expression can mean. Resolving an
expression puts the place and the affinity of a column where its name stood, and refuses
what cannot be run: unknown columns, and functions of a group outside of a group.

Names are compared without regard to the case of the letters A to Z. A name that means no
column can mean a selected value by its label, and in double quotes it is a text. The
number of a row is a hidden column: some names mean it when no other column has them, and
it is not among the columns that are selected together.

## Main definitions

* `Scope.find?`: the column that a name means.
* `Scope.resolve`: an expression with its columns found.
-/

namespace RealmDirectory.Sql

/-! ### Names -/

/-- Whether two names are one. -/
def sameName (a b : List Char) : Bool := a.map Char.toLower == b.map Char.toLower

/-- A column that names can mean. -/
structure Column where
  /-- The table that the column belongs to. -/
  table : List Char
  name : List Char
  affinity : Affinity
  collation : Collation := .binary
  /-- Whether the column is the number of its row. -/
  hidden : Bool := false
  deriving DecidableEq, Repr

/-- The place of a column in the rows, with what governs its comparisons. -/
structure Field where
  index : Nat
  affinity : Affinity
  collation : Collation
  deriving DecidableEq, Repr

/-- An expression whose columns were found. -/
abbrev Term := Expr Field

/-- What names can mean: the columns of the rows, and the selected values by label. -/
structure Scope where
  columns : List Column
  labels : List (List Char × Term) := []

namespace Scope

/-- The scope without columns. -/
def empty : Scope := ⟨[], []⟩

/-- The names of the number of a row. -/
def rowNumberNames : List (List Char) := ["rowid".toList, "oid".toList, "_rowid_".toList]

/-- Whether a name means a column. -/
def means (c : ColumnName) (d : Column) : Bool :=
  (c.table.map fun t => sameName t d.table).getD true &&
    if d.hidden then rowNumberNames.any (sameName c.column) else sameName c.column d.name

/-- The column that a name means: the first one, since hidden columns come last. -/
def find? (s : Scope) (c : ColumnName) : Option Field :=
  (s.columns.findIdx? (means c)).bind fun i =>
    (s.columns[i]?).map fun d => ⟨i, d.affinity, d.collation⟩

/-- The selected value with a label. -/
def label? (s : Scope) (c : ColumnName) : Option Term :=
  if c.table.isSome then none
  else (s.labels.find? fun l => sameName l.1 c.column).map Prod.snd

/-- The truth values that are written as names. -/
def truthWord? (c : ColumnName) : Option Value :=
  if c.table.isSome || c.quoted then none
  else if sameName c.column "true".toList then some (.integer 1)
  else if sameName c.column "false".toList then some (.integer 0)
  else none

/-- What a name means: a column, a selected value, a truth value, or in double quotes a
text. -/
def meaning (s : Scope) (c : ColumnName) : Except Fault Term :=
  match s.find? c, s.label? c, truthWord? c with
  | some f, _, _ => .ok (.column f)
  | none, some t, _ => .ok t
  | none, none, some v => .ok (.literal v)
  | none, none, none =>
      if c.quoted then .ok (.literal (.text c.column)) else .error (.noSuchColumn c.column)

mutual

/-- The expression with its columns found. Functions of a group are refused unless
`grouped`, and inside of one another. -/
def resolve (s : Scope) (grouped : Bool) : Expr ColumnName → Except Fault Term
  | .literal v => .ok (.literal v)
  | .mark i => .ok (.mark i)
  | .column c => s.meaning c
  | .positive e => do return .positive (← s.resolve grouped e)
  | .negative e => do return .negative (← s.resolve grouped e)
  | .complement e => do return .complement (← s.resolve grouped e)
  | .not e => do return .not (← s.resolve grouped e)
  | .and a b => do return .and (← s.resolve grouped a) (← s.resolve grouped b)
  | .or a b => do return .or (← s.resolve grouped a) (← s.resolve grouped b)
  | .compare c a b => do return .compare c (← s.resolve grouped a) (← s.resolve grouped b)
  | .same a b => do return .same (← s.resolve grouped a) (← s.resolve grouped b)
  | .outcome wanted e => do return .outcome wanted (← s.resolve grouped e)
  | .among e l => do return .among (← s.resolve grouped e) (← s.resolveAll grouped l)
  | .operate o a b => do return .operate o (← s.resolve grouped a) (← s.resolve grouped b)
  | .append a b => do return .append (← s.resolve grouped a) (← s.resolve grouped b)
  | .like a b => do return .like (← s.resolve grouped a) (← s.resolve grouped b)
  | .likeEscape a b c => do
      return .likeEscape (← s.resolve grouped a) (← s.resolve grouped b)
        (← s.resolve grouped c)
  | .choose c a b => do
      return .choose (← s.resolve grouped c) (← s.resolve grouped a) (← s.resolve grouped b)
  | .cast e a => do return .cast (← s.resolve grouped e) a
  | .collate e c => do return .collate (← s.resolve grouped e) c
  | .call f l => do return .call f (← s.resolveAll grouped l)
  | .countRows => if grouped then .ok .countRows else .error .misplacedAggregate
  | .aggregate f once l =>
      if grouped then do return .aggregate f once (← s.resolveAll false l)
      else .error .misplacedAggregate

/-- The expressions of a list with their columns found. -/
def resolveAll (s : Scope) (grouped : Bool) :
    List (Expr ColumnName) → Except Fault (List Term)
  | [] => .ok []
  | e :: l => do return (← s.resolve grouped e) :: (← s.resolveAll grouped l)

end

/-- An optional expression with its columns found. -/
def resolve? (s : Scope) (grouped : Bool) :
    Option (Expr ColumnName) → Except Fault (Option Term)
  | none => .ok none
  | some e => do return some (← s.resolve grouped e)

end Scope

end RealmDirectory.Sql
