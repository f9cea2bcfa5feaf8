import RealmDirectory.Number.Decimal

/-!
# Binary floating-point numbers of 64 bits

A finite number is `mantissa · 2 ^ exponent` with at most 53 bits of mantissa and an
exponent from −1074 to 971. Reading rounds to the nearest number, and a tie goes to the
even mantissa. All of it is exact arithmetic on whole numbers.

## Main definitions

* `Binary64.nearest`: the number nearest to a fraction.
* `Binary64.ofDecimal`, `Binary64.read?`: the number of a numeral.
* `Binary64.truncate`: the whole part, cut to 64 bits.
-/

namespace RealmDirectory

/-- A number of the format, or one of its special values. -/
inductive Binary64 where
  | finite (negative : Bool) (mantissa : Nat) (exponent : Int)
  | infinite (negative : Bool)
  | nan
  deriving DecidableEq, Repr

namespace Binary64

/-- The least exponent. -/
def minExponent : Int := -1074

/-- The greatest exponent. -/
def maxExponent : Int := 971

/-- The number of bits of a mantissa. -/
def precision : Nat := 53

/-- `base ^ exponent` as a fraction, with 1 above or below. -/
def power (base : Nat) (exponent : Int) : Nat × Nat :=
  (Nat.pow base exponent.toNat, Nat.pow base (-exponent).toNat)

/-- The number of a sign, a mantissa and an exponent within the mantissa's bits; beyond
the greatest exponent it is infinite. -/
def bounded (negative : Bool) (mantissa : Nat) (exponent : Int) : Binary64 :=
  if maxExponent < exponent then infinite negative else finite negative mantissa exponent

/-- The quotient of `num` by `den · 2 ^ exponent` and whether its rest rounds up. -/
def quotientAt (num den : Nat) (exponent : Int) : Nat × Bool :=
  let p := power 2 exponent
  let n := num * p.2
  let d := den * p.1
  let q := n / d
  let rest := 2 * (n % d)
  (q, d < rest || (rest == d && q % 2 == 1))

/-- The number nearest to `num / den`, both positive. -/
def nearest (negative : Bool) (num den : Nat) : Binary64 :=
  let low := max minExponent ((num.log2 : Int) - den.log2 - precision)
  let exponent := if (quotientAt num den low).1 < Nat.pow 2 precision then low else low + 1
  let (q, up) := quotientAt num den exponent
  let mantissa := if up then q + 1 else q
  if mantissa = Nat.pow 2 precision then
    bounded negative (Nat.pow 2 (precision - 1)) (exponent + 1)
  else bounded negative mantissa exponent

/-- Zero. -/
def zero (negative : Bool) : Binary64 := finite negative 0 minExponent

/-- The number nearest to a decimal. Decimals beyond ten to the power of 400 in either
direction are infinite or zero without further reckoning. -/
def ofDecimal (negative : Bool) (d : Decimal) : Binary64 :=
  if d.digits = 0 ∨ d.magnitude < -400 then zero negative
  else if 400 < d.magnitude then infinite negative
  else
    let p := power 10 d.exponent
    nearest negative (d.digits * p.1) p.2

/-- The number nearest to a whole number. -/
def ofInt (n : Int) : Binary64 :=
  if n = 0 then zero false else nearest (decide (n < 0)) n.natAbs 1

/-- Reads a number without a sign: a numeral, or the name of a special value in either
case of its letters. -/
def readUnsigned? (negative : Bool) (s : List Char) : Option Binary64 :=
  let word := s.map Char.toLower
  if word = ['i', 'n', 'f'] ∨ word = ['i', 'n', 'f', 'i', 'n', 'i', 't', 'y'] then
    some (infinite negative)
  else if word = ['n', 'a', 'n'] then some nan
  else (Decimal.read? s).map (ofDecimal negative)

/-- Reads a number with an optional sign. -/
def read? : List Char → Option Binary64
  | '-' :: r => readUnsigned? true r
  | '+' :: r => readUnsigned? false r
  | s => readUnsigned? false s

/-- The least whole number of 64 bits. -/
def leastWhole : Int := -0x8000000000000000

/-- The greatest whole number of 64 bits. -/
def greatestWhole : Int := 0x7FFFFFFFFFFFFFFF

/-- A whole number cut to the nearest one of 64 bits. -/
def saturate (n : Int) : Int64 := Int64.ofInt (max leastWhole (min greatestWhole n))

/-- The number without its fraction, cut to the nearest whole number of 64 bits. What is
not a number counts as zero. -/
def truncate : Binary64 → Int64
  | nan => 0
  | infinite negative => saturate (if negative then leastWhole else greatestWhole)
  | finite negative mantissa exponent =>
      let p := power 2 exponent
      let n : Int := (mantissa * p.1 / p.2 : Nat)
      saturate (if negative then -n else n)

end Binary64

end RealmDirectory
