import RealmDirectory.Json.Value
import RealmDirectory.Text.Hex
import RealmDirectory.Text.Number

/-!
# JSON texts

A JSON value is written without spaces. In texts, quotes, backslashes and control
characters are escaped, and everything else stands as it is.
-/

namespace RealmDirectory.JsonValue

/-- A character as it stands between quotes. -/
def quotedChar (c : Char) : List Char :=
  if c = '"' then ['\\', '"']
  else if c = '\\' then ['\\', '\\']
  else if c = '\n' then ['\\', 'n']
  else if c = '\r' then ['\\', 'r']
  else if c = '\t' then ['\\', 't']
  else if c.toNat < 0x20 then
    ['\\', 'u', '0', '0', Text.hexDigit (c.toNat / 16), Text.hexDigit (c.toNat % 16)]
  else [c]

/-- A text between quotes. -/
def quoted (s : String) : List Char := '"' :: s.toList.flatMap quotedChar ++ ['"']

/-- A whole number in decimal. -/
def signedDecimal (n : Int) : List Char :=
  if n < 0 then '-' :: Text.decimal n.natAbs else Text.decimal n.natAbs

mutual

/-- The text of a value. What has no text of its own is written as null. -/
def written : JsonValue → List Char
  | .null | .fraction => "null".toList
  | .bool b => if b then "true".toList else "false".toList
  | .whole n => signedDecimal n
  | .text s => quoted s
  | .array [] => ['[', ']']
  | .array (v :: l) => '[' :: written v ++ writtenItems l
  | .object [] => ['\x7b', '\x7d']
  | .object ((k, v) :: l) => '\x7b' :: quoted k ++ ':' :: written v ++ writtenMembers l

/-- The items of an array behind the first one, and its end. -/
def writtenItems : List JsonValue → List Char
  | [] => [']']
  | v :: l => ',' :: written v ++ writtenItems l

/-- The members of an object behind the first one, and its end. -/
def writtenMembers : List (String × JsonValue) → List Char
  | [] => ['\x7d']
  | (k, v) :: l => ',' :: quoted k ++ ':' :: written v ++ writtenMembers l

end

end RealmDirectory.JsonValue
