import RealmDirectory.Text.Number

/-!
# Decimal numerals

A numeral has digits around an optional point, at least one of them, and an optional
exponent: `42`, `1.`, `.5`, `2.5e-3`. Its value is a whole number times a power of ten.
-/

namespace RealmDirectory

/-- The number `digits · 10 ^ exponent`. -/
structure Decimal where
  digits : Nat
  exponent : Int
  deriving DecidableEq, Repr

namespace Decimal

/-- Whether a character is one of the digits 0 to 9. -/
def isDigit (c : Char) : Bool := (Text.digitValue? c).isSome

/-- The number that digits stand for. -/
def ofDigits (s : List Char) : Nat :=
  s.foldl (fun n c => 10 * n + (Text.digitValue? c).getD 0) 0

/-- Reads the digits of an exponent, of which there has to be one. -/
def readExponentDigits? (s : List Char) : Option Int :=
  if s.isEmpty || !s.all isDigit then none else some (ofDigits s)

/-- Reads what follows the digits of a numeral: nothing, or an exponent. -/
def readExponent? : List Char → Option Int
  | [] => some 0
  | c :: r =>
      if c = 'e' ∨ c = 'E' then
        match r with
        | '-' :: r => (readExponentDigits? r).map fun n => -n
        | '+' :: r => readExponentDigits? r
        | _ => readExponentDigits? r
      else none

/-- Reads a numeral without a sign. -/
def read? (s : List Char) : Option Decimal :=
  let whole := s.takeWhile isDigit
  let rest := s.dropWhile isDigit
  let fraction := match rest with
    | '.' :: r => r.takeWhile isDigit
    | _ => []
  let rest := match rest with
    | '.' :: r => r.dropWhile isDigit
    | _ => rest
  if whole.isEmpty && fraction.isEmpty then none
  else (readExponent? rest).map fun e =>
    ⟨ofDigits (whole ++ fraction), e - fraction.length⟩

/-- The power of ten of the numeral's first digit lies below this number. -/
def magnitude (d : Decimal) : Int := d.exponent + (Nat.toDigits 10 d.digits).length

end Decimal

end RealmDirectory
