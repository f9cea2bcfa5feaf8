/-!
# Hexadecimal

Bytes as pairs of hexadecimal digits, in lower case when they are written.
-/

namespace RealmDirectory.Text

/-- The hexadecimal digit of a number below 16. -/
def hexDigit (n : Nat) : Char := Nat.digitChar n

/-- The hexadecimal digits of bytes, two for each. -/
def toHex (bytes : List UInt8) : List Char :=
  bytes.flatMap fun b => [hexDigit (b.toNat / 16), hexDigit (b.toNat % 16)]

/-- The value of a hexadecimal digit in either case. -/
def hexValue? (c : Char) : Option Nat :=
  if '0' ≤ c ∧ c ≤ '9' then some (c.toNat - '0'.toNat)
  else if 'a' ≤ c ∧ c ≤ 'f' then some (c.toNat - 'a'.toNat + 10)
  else if 'A' ≤ c ∧ c ≤ 'F' then some (c.toNat - 'A'.toNat + 10)
  else none

/-- The bytes of pairs of hexadecimal digits. -/
def ofHex? : List Char → Option (List UInt8)
  | [] => some []
  | [_] => none
  | h :: l :: r => do
      let hi ← hexValue? h
      let lo ← hexValue? l
      let rest ← ofHex? r
      some ((16 * hi + lo).toUInt8 :: rest)

end RealmDirectory.Text
