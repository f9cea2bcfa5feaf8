/-!
# Numbers in decimal

Unsigned numbers are written with the digits 0 to 9. `readBounded` accepts an optional
plus sign and any number of leading zeros, as command lines and stored hash texts do,
and refuses a number above its bound.
-/

namespace RealmDirectory.Text

/-- The value of a decimal digit. -/
def digitValue? (c : Char) : Option Nat :=
  if '0' ≤ c ∧ c ≤ '9' then some (c.toNat - '0'.toNat) else none

/-- Reads digits onto a number that was read before, up to a bound. -/
def readDigits (bound : Nat) (acc : Nat) : List Char → Option Nat
  | [] => some acc
  | c :: r => do
      let d ← digitValue? c
      let next := acc * 10 + d
      if next ≤ bound then readDigits bound next r else none

/-- Reads an unsigned decimal number of at least one digit, with an optional plus sign
and at most `bound`. -/
def readBounded (bound : Nat) (s : List Char) : Option Nat :=
  let digits := match s with
    | '+' :: r => r
    | _ => s
  if digits.isEmpty then none else readDigits bound 0 digits

/-- The largest number of 32 bits. -/
def maxWord32 : Nat := 0xFFFFFFFF

/-- The largest number of 64 bits. -/
def maxWord64 : Nat := 0xFFFFFFFFFFFFFFFF

/-- The decimal digits of a number. -/
def decimal (n : Nat) : List Char := Nat.toDigits 10 n

end RealmDirectory.Text
