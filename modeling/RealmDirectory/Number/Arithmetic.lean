import RealmDirectory.Number.Binary64

/-!
# Arithmetic of floating-point numbers

A finite number is a fraction. A sum, product or quotient is reckoned as a fraction and
then rounded once, to the nearest number. Where fractions give no answer, the special
values do: a number divided by zero is infinite, and what has no sensible answer, such as
the difference of two infinities, is not a number.

## Main definitions

* `Binary64.fraction`, `Binary64.ofFraction`: a number as a fraction and back.
* `Binary64.add`, `Binary64.sum`, `Binary64.sub`, `Binary64.mul`, `Binary64.div`: arithmetic.
-/

namespace RealmDirectory.Binary64

/-- A finite number as a fraction with a positive denominator. -/
def fraction (negative : Bool) (mantissa : Nat) (exponent : Int) : Int × Nat :=
  let p := power 2 exponent
  let n : Int := mantissa * p.1
  (if negative then -n else n, p.2)

/-- The number nearest to a fraction; the sign of zero is given. -/
def ofFraction (negativeZero : Bool) (num : Int) (den : Nat) : Binary64 :=
  if num = 0 then zero negativeZero else nearest (decide (num < 0)) num.natAbs den

/-- A finite number counted in units of the least positive number. -/
def inUnits (negative : Bool) (mantissa : Nat) (exponent : Int) : Int :=
  let n : Int := mantissa * Nat.pow 2 (exponent - minExponent).toNat
  if negative then -n else n

/-- The opposite number. -/
def neg : Binary64 → Binary64
  | finite negative mantissa exponent => finite (!negative) mantissa exponent
  | infinite negative => infinite (!negative)
  | nan => nan

/-- The sum of two numbers. -/
def add : Binary64 → Binary64 → Binary64
  | nan, _ | _, nan => nan
  | infinite a, infinite b => if a == b then infinite a else nan
  | infinite a, _ => infinite a
  | _, infinite b => infinite b
  | finite a m e, finite b n f =>
      let x := fraction a m e
      let y := fraction b n f
      ofFraction (a && b) (x.1 * y.2 + y.1 * x.2) (x.2 * y.2)

/-- The sum of many numbers, rounded once at the end when all of them are finite. -/
def sum (l : List Binary64) : Binary64 :=
  let units? := l.mapM fun x =>
    match x with
    | finite negative mantissa exponent => some (inUnits negative mantissa exponent)
    | _ => none
  match units? with
  | some units => ofFraction false (units.foldl (· + ·) 0) (Nat.pow 2 (-minExponent).toNat)
  | none => l.foldl add (zero false)

/-- The difference of two numbers. -/
def sub (x y : Binary64) : Binary64 := add x (neg y)

/-- The product of two numbers. -/
def mul : Binary64 → Binary64 → Binary64
  | nan, _ | _, nan => nan
  | infinite a, infinite b => infinite (a != b)
  | infinite a, finite b n _ => if n = 0 then nan else infinite (a != b)
  | finite a m _, infinite b => if m = 0 then nan else infinite (a != b)
  | finite a m e, finite b n f =>
      let x := fraction a m e
      let y := fraction b n f
      ofFraction (a != b) (x.1 * y.1) (x.2 * y.2)

/-- The quotient of two numbers. -/
def div : Binary64 → Binary64 → Binary64
  | nan, _ | _, nan => nan
  | infinite _, infinite _ => nan
  | infinite a, finite b _ _ => infinite (a != b)
  | finite a _ _, infinite b => zero (a != b)
  | finite a m e, finite b n f =>
      if n = 0 then if m = 0 then nan else infinite (a != b)
      else
        let x := fraction a m e
        let y := fraction b n f
        ofFraction (a != b) (x.1 * y.2 * (if b then -1 else 1)) (x.2 * y.1.natAbs)

end RealmDirectory.Binary64
