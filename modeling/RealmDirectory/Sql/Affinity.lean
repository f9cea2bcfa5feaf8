import RealmDirectory.Sql.Value
import RealmDirectory.Text.Piece

/-!
# Affinities

A column carries an affinity, the kind that its values are turned into when nothing is
lost by it. A comparison turns one side into the kind of the other by the same rule.

## Main definitions

* `Affinity.ofDeclared`: the affinity of a column's declared type.
* `Affinity.apply`: a value as a column of an affinity keeps it.
* `Affinity.forComparison`: what a comparison does to its sides.
-/

namespace RealmDirectory.Sql

/-- The kind of value that a column prefers. -/
inductive Affinity where
  /-- Values stay as they are. -/
  | none
  | text
  /-- Numbers, whole ones where nothing is lost. -/
  | numeric
  /-- As `numeric`; a whole number is what the column is declared to hold. -/
  | integer
  | real
  deriving DecidableEq, Repr

namespace Affinity

/-- The affinity of a declared type: a word in it tells the kind. -/
def ofDeclared (declared : List Char) : Affinity :=
  let s := declared.map Char.toUpper
  let has (word : String) := Text.occursIn word.toList s
  if has "INT" then integer
  else if has "CHAR" || has "CLOB" || has "TEXT" then text
  else if s.isEmpty || has "BLOB" then none
  else if has "REAL" || has "FLOA" || has "DOUB" then real
  else numeric

/-- Whether the affinity is for numbers. -/
def isNumeric : Affinity → Bool
  | numeric | integer | real => true
  | _ => false

/-- A number as a numeric column keeps it: whole where nothing is lost. -/
def wholeOr (v : Value) : Value :=
  match v.whole? with
  | some n => .integer n
  | Option.none => v

/-- A text that is a number, as that number. -/
def ofText (s : List Char) : Value :=
  match Value.number? s with
  | some v => wholeOr v
  | Option.none => .text s

/-- A value as a column keeps it. -/
def apply (a : Affinity) (v : Value) : Value :=
  match a, v with
  | none, v => v
  | text, .integer n => .text (Value.signedDecimal n.toInt)
  | text, .real x => .text (Value.realText x)
  | text, v => v
  | real, .integer n => .real (Binary64.ofInt n.toInt)
  | real, .text s =>
      match Value.number? s with
      | some (.integer n) => .real (Binary64.ofInt n.toInt)
      | some v => v
      | Option.none => .text s
  | real, v => v
  | _, .text s => ofText s
  | _, .real x => wholeOr (.real x)
  | _, v => v

/-- The affinities under which two sides are compared: a number on one side makes numbers
of the other, and otherwise a text on one side makes texts of a side without a kind. -/
def forComparison (left right : Affinity) : Affinity × Affinity :=
  if left.isNumeric && !right.isNumeric then (none, numeric)
  else if right.isNumeric && !left.isNumeric then (numeric, none)
  else if left == text && right == none then (none, text)
  else if right == text && left == none then (text, none)
  else (none, none)

end Affinity

end RealmDirectory.Sql
