import RealmDirectory.Text.Piece
import RealmDirectory.Url.Percent

/-!
# Form fields

The query of a URL holds fields as `key=value` between ampersands. A plus sign stands for
a space, encodings are undone, and bytes that are no text become replacement characters.
A field without an equals sign has the empty value; fields without any text are skipped.
-/

namespace RealmDirectory.UrlFields

/-- A character of an encoded key or value. -/
def plain (c : Char) : Char := if c = '+' then ' ' else c

/-- The text of an encoded key or value. -/
def decode (s : List Char) : String :=
  String.ofList
    (Text.ofUtf8Lossy (Percent.decode (Text.utf8Bytes (s.map plain))))

/-- The key and the value of an encoded field. -/
def field (s : List Char) : String × String :=
  match Text.cut '=' s with
  | some (key, value) => (decode key, decode value)
  | none => (decode s, "")

/-- The fields of a query in order. -/
def ofQuery (query : List Char) : List (String × String) :=
  ((Text.splitOn '&' query).filter fun s => !s.isEmpty).map field

end RealmDirectory.UrlFields
