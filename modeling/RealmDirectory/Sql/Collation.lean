import RealmDirectory.Sql.Value
import RealmDirectory.Text.Piece

/-!
# Collations

A collation says which texts count as one when values are compared and ordered. It does
so by a key: texts with one key are one text, and keys are ordered character by
character.
-/

namespace RealmDirectory.Sql

/-- Which texts count as one. -/
inductive Collation where
  /-- Every text counts for itself. -/
  | binary
  /-- The case of the letters A to Z does not count. -/
  | nocase
  /-- Spaces at the end do not count. -/
  | rtrim
  deriving DecidableEq, Repr

namespace Collation

/-- The collation with a name. -/
def ofName? (name : List Char) : Option Collation :=
  let word := name.map Char.toUpper
  if word == "BINARY".toList then some binary
  else if word == "NOCASE".toList then some nocase
  else if word == "RTRIM".toList then some rtrim
  else none

/-- The key of a text. -/
def key : Collation → List Char → List Char
  | binary, s => s
  | nocase, s => s.map Char.toLower
  | rtrim, s => Text.dropEndWhile (· == ' ') s

/-- The value whose text is the key of a text. -/
def keyed (c : Collation) : Value → Value
  | .text s => .text (c.key s)
  | v => v

/-- The order of values in which texts with one key are one. -/
def compare (c : Collation) (a b : Value) : Ordering :=
  Value.compare (c.keyed a) (c.keyed b)

end Collation

end RealmDirectory.Sql
