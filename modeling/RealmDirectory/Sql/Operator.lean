import RealmDirectory.Sql.Value

/-!
# Operators on numbers

Arithmetic takes its operands for numbers, texts by the number they begin with. Two whole
numbers give a whole number when it has 64 bits, and a floating-point number otherwise;
the operators on bits always take whole numbers. Division by zero is NULL, and so is
everything that has NULL for an operand.

## Main definitions

* `Operator`, `Operator.apply`: the operators and their values.
-/

namespace RealmDirectory.Sql

/-- An operator on numbers. -/
inductive Operator where
  | add
  | sub
  | mul
  | div
  | rem
  | bitAnd
  | bitOr
  | shiftLeft
  | shiftRight
  deriving DecidableEq, Repr

namespace Operator

/-- The number of bits of a whole number. -/
def wordSize : Int64 := 64

/-- A whole number shifted to the left, or to the right by a negative count. Every bit
shifted in is zero, but those of a negative number that come in from the left. -/
def shifted (a count : Int64) : Int64 :=
  if count = 0 then a
  else if 0 < count then if wordSize ≤ count then 0 else a <<< count
  else if count ≤ -wordSize then if a < 0 then -1 else 0
  else a >>> (-count)

/-- The value of an operator on the bits of two whole numbers. -/
def onBits : Operator → Int64 → Int64 → Int64
  | bitAnd, a, b => a &&& b
  | bitOr, a, b => a ||| b
  | shiftLeft, a, b => shifted a b
  | shiftRight, a, b => if b = Int64.minValue then shifted a Int64.maxValue else shifted a (-b)
  | _, _, _ => 0

/-- The exact value of an operator on two whole numbers, of which the second is not zero
where they are divided. -/
def onWholes : Operator → Int → Int → Int
  | add, a, b => a + b
  | sub, a, b => a - b
  | mul, a, b => a * b
  | div, a, b => a.tdiv b
  | rem, a, b => a.tmod b
  | _, _, _ => 0

/-- The value of an operator on two floating-point numbers. -/
def onReals : Operator → Binary64 → Binary64 → Binary64
  | add, a, b => a.add b
  | sub, a, b => a.sub b
  | mul, a, b => a.mul b
  | div, a, b => a.div b
  | _, _, _ => .nan

/-- A floating-point number as a value; what is not a number is NULL. -/
def ofReal : Binary64 → Value
  | .nan => .null
  | x => .real x

/-- Whether an operator divides. -/
def divides : Operator → Bool
  | div | rem => true
  | _ => false

/-- Whether an operator works on bits. -/
def isBitwise : Operator → Bool
  | bitAnd | bitOr | shiftLeft | shiftRight => true
  | _ => false

/-- The value of an operator on two numbers of which one is a floating-point number, or
whose whole value has more than 64 bits. A remainder is that of the whole parts, which
are given beside the numbers. -/
def onNumbers (o : Operator) (x y : Value) (m n : Int64) : Value :=
  match o with
  | rem =>
      if n = 0 then .null else .real (Binary64.ofInt (m.toInt.tmod n.toInt))
  | div => if Value.isNonzero y then ofReal (x.toReal.div y.toReal) else .null
  | o => ofReal (o.onReals x.toReal y.toReal)

/-- The value of an operator. -/
def apply (o : Operator) (a b : Value) : Value :=
  match a.number, b.number with
  | some x, some y =>
      if o.isBitwise then .integer (o.onBits a.whole b.whole)
      else
        match x, y with
        | .integer m, .integer n =>
            if o.divides && n == 0 then .null
            else
              match int64? (o.onWholes m.toInt n.toInt) with
              | some k => .integer k
              | none => o.onNumbers x y m n
        | x, y => o.onNumbers x y a.whole b.whole
  | _, _ => .null

end Operator

end RealmDirectory.Sql
