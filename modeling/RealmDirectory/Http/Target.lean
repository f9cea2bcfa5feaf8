import RealmDirectory.Text.Piece

/-!
# Request targets

The target of a request is a path, with a query behind a question mark. Spaces, control
characters and some brackets must be encoded in it. A fragment is no part of the target.
-/

namespace RealmDirectory

/-- The path and the query of a request. -/
structure Target where
  path : List Char
  query : List Char
  deriving DecidableEq, Repr

namespace Target

/-- Whether a character can stand in a query as it is: any but spaces, controls, quotes and
angle brackets, and the sign of a fragment. -/
def inQuery (c : Char) : Bool :=
  let n := c.toNat
  n == 0x21 || (0x24 ≤ n && n ≤ 0x3B) || n == 0x3D || 0x3F ≤ n

/-- Whether a character can stand in a path as it is. -/
def inPath (c : Char) : Bool := c == '"' || (inQuery c && c != '?' && c != '\x60')

/-- The target of a text that is one. -/
def ofText? (s : String) : Option Target :=
  let whole := s.toList.takeWhile (· != '#')
  let path := whole.takeWhile (· != '?')
  let query := (whole.dropWhile (· != '?')).drop 1
  if path.head? = some '/' && path.all inPath && query.all inQuery then some ⟨path, query⟩
  else none

end Target

end RealmDirectory
