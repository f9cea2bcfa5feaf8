import RealmDirectory.Text.Hex
import RealmDirectory.Text.Utf8

/-!
# Percent-encoding

In a URL, a byte can be written as a percent sign and two hexadecimal digits. Each part
of a URL has its own set of characters that are always written so; characters outside
ASCII and control characters belong to every set. A percent sign that stands in a text is
kept, since it may be an encoding already.

## Main definitions

* `Percent.encode`: the text with the characters of a set encoded.
* `Percent.decode`: the bytes of a text whose encodings are undone.
-/

namespace RealmDirectory.Percent

/-! ### Sets of characters -/

/-- Control characters and everything outside ASCII. -/
def isControl (c : Char) : Bool := c.toNat < 0x20 || 0x7F ≤ c.toNat

/-- The characters that are encoded in queries. -/
def inQuery (c : Char) : Bool := isControl c || [' ', '"', '#', '<', '>'].contains c

/-- The characters that are encoded in fragments. -/
def inFragment (c : Char) : Bool := isControl c || [' ', '"', '<', '>', '\x60'].contains c

/-- The characters that are encoded in paths. -/
def inPath (c : Char) : Bool := inFragment c || ['#', '?', '\x7b', '\x7d'].contains c

/-- The characters that are encoded in user names and passwords. -/
def inUserinfo (c : Char) : Bool :=
  inPath c || ['/', ':', ';', '=', '@', '[', '\\', ']', '^', '|'].contains c

/-! ### Encoding -/

/-- The encoding of a byte, with letters in upper case. -/
def encodeByte (b : UInt8) : List Char := '%' :: (Text.toHex [b]).map Char.toUpper

/-- The text with the characters of a set encoded. -/
def encode (set : Char → Bool) (s : List Char) : List Char :=
  s.flatMap fun c => if set c then (String.utf8EncodeChar c).flatMap encodeByte else [c]

/-! ### Decoding -/

/-- The bytes of a text whose encodings are undone. A percent sign without two digits
stands for itself. -/
def decode : List UInt8 → List UInt8
  | [] => []
  | [b] => [b]
  | [b, c] => [b, c]
  | b :: h :: l :: r =>
      match b == 0x25, digit? h, digit? l with
      | true, some hi, some lo => (16 * hi + lo).toUInt8 :: decode r
      | _, _, _ => b :: decode (h :: l :: r)
where
  /-- The value of a byte that is a hexadecimal digit. -/
  digit? (b : UInt8) : Option Nat :=
    if b < 0x80 then Text.hexValue? (Char.ofNat b.toNat) else none

end RealmDirectory.Percent
