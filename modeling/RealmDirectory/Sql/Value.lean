import RealmDirectory.Number.Arithmetic
import RealmDirectory.Number.Shortest
import RealmDirectory.Text.Blank
import RealmDirectory.Text.Utf8

/-!
# Database values

A value is NULL, a whole number of 64 bits, a floating-point number, a text or bytes.
Values of different kinds are ordered by kind: NULL, numbers, texts, bytes. A value has
two texts: the one that functions on texts see, and the one under which it is handed out.

## Main definitions

* `Value.compare`: the order of values.
* `Value.string`: the characters that functions on texts see.
* `Value.shown`: the text under which a value is handed out.
-/

namespace RealmDirectory.Sql

/-- A value of a database. -/
inductive Value where
  | null
  | integer (n : Int64)
  | real (x : Binary64)
  | text (s : List Char)
  | blob (bytes : List UInt8)
  deriving DecidableEq, Repr

instance : Inhabited Value := ⟨.null⟩

/-! ### Numbers in texts -/

/-- Whether SQL skips a character between words and around numbers. -/
def isSpace (c : Char) : Bool :=
  c == ' ' || c == '\t' || c == '\n' || c == '\x0b' || c == '\x0c' || c == '\r'

/-- The whole number, when it has 64 bits. -/
def int64? (n : Int) : Option Int64 :=
  if Binary64.leastWhole ≤ n ∧ n ≤ Binary64.greatestWhole then some (Int64.ofInt n)
  else none

namespace Value

/-- A truth value. -/
def ofBool (b : Bool) : Value := .integer (if b then 1 else 0)

/-- The number of digits: a whole number when it has 64 bits, else a floating-point one. -/
def ofDigits (negative : Bool) (digits : List Char) : Value :=
  let n : Int := Decimal.ofDigits digits
  match int64? (if negative then -n else n) with
  | some i => .integer i
  | Option.none => .real (Binary64.ofDecimal negative ⟨Decimal.ofDigits digits, 0⟩)

/-- The number that a numeral without a sign stands for. -/
def ofNumeral? (negative : Bool) (s : List Char) : Option Value :=
  if !s.isEmpty && s.all Decimal.isDigit then some (ofDigits negative s)
  else (Decimal.read? s).map fun d => .real (Binary64.ofDecimal negative d)

/-- The number that a signed numeral stands for. -/
def ofSigned? : List Char → Option Value
  | '-' :: r => ofNumeral? true r
  | '+' :: r => ofNumeral? false r
  | s => ofNumeral? false s

/-- The number that a text stands for as a whole, with spaces around it. -/
def number? (s : List Char) : Option Value :=
  ofSigned? (Text.dropEndWhile isSpace (s.dropWhile isSpace))

/-- The number at the start of a text, the longest one that is there; zero without one. -/
def leadingNumber (s : List Char) : Value :=
  let s := s.dropWhile isSpace
  let starts := (List.range (s.length + 1)).reverse.map s.take
  (starts.findSome? ofSigned?).getD (.integer 0)

/-! ### Order -/

/-- The order of two floating-point numbers; what is not a number comes first. -/
def compareReal : Binary64 → Binary64 → Ordering
  | .nan, .nan => .eq
  | .nan, _ => .lt
  | _, .nan => .gt
  | .infinite a, .infinite b => Ord.compare (!a) (!b)
  | .infinite a, _ => if a then .lt else .gt
  | _, .infinite b => if b then .gt else .lt
  | .finite a m e, .finite b n f =>
      let x := Binary64.fraction a m e
      let y := Binary64.fraction b n f
      Ord.compare (x.1 * y.2) (y.1 * x.2)

/-- A whole number as an exact floating-point one. -/
def exact (n : Int64) : Binary64 := .finite (decide (n.toInt < 0)) n.toInt.natAbs 0

/-- The order of two lists, the first difference deciding. -/
def compareLists {α : Type} (compare : α → α → Ordering) : List α → List α → Ordering
  | [], [] => .eq
  | [], _ :: _ => .lt
  | _ :: _, [] => .gt
  | a :: s, b :: t => (compare a b).then (compareLists compare s t)

/-- The place of a value's kind in the order of kinds. -/
def rank : Value → Nat
  | null => 0
  | integer _ | real _ => 1
  | text _ => 2
  | blob _ => 3

/-- The order of values. -/
def compare : Value → Value → Ordering
  | integer a, integer b => Ord.compare a.toInt b.toInt
  | integer a, real b => compareReal (exact a) b
  | real a, integer b => compareReal a (exact b)
  | real a, real b => compareReal a b
  | text a, text b => compareLists (fun c d => Ord.compare c.toNat d.toNat) a b
  | blob a, blob b => compareLists (fun c d => Ord.compare c.toNat d.toNat) a b
  | a, b => Ord.compare a.rank b.rank

/-! ### Texts of values -/

/-- A whole number in decimal. -/
def signedDecimal (n : Int) : List Char :=
  if n < 0 then '-' :: Text.decimal n.natAbs else Text.decimal n.natAbs

/-- The number of digits that a text keeps of a floating-point number. -/
def keptDigits : Nat := 15

/-- The digits kept of a positive fraction and the power of ten of the last of them. -/
def roundedDigits (num den : Nat) : Nat × Int :=
  let size : Int := (Text.decimal (num / den)).length
  let small : Int := (Text.decimal (den / num)).length
  let top := if den ≤ num then size else 1 - small
  let at? (k : Int) : Nat :=
    let p := Binary64.power 10 k
    (2 * num * p.2 + den * p.1) / (2 * den * p.1)
  let k := top - keptDigits
  let digits := at? k
  if Nat.pow 10 keptDigits ≤ digits then (at? (k + 1), k + 1)
  else if digits < Nat.pow 10 (keptDigits - 1) then (at? (k - 1), k - 1)
  else (digits, k)

/-- Digits with a point behind the first `places` of them and at least one after it. -/
def pointed (places : Nat) (digits : List Char) : List Char :=
  let whole := digits.take places
  let rest := Text.dropEndWhile (· == '0') (digits.drop places)
  whole ++ '.' :: (if rest.isEmpty then ['0'] else rest)

/-- The text of a positive fraction: with an exponent when it is below `10 ^ (-4)`, or at
least `10 ^ 15`, and positional otherwise. -/
def fractionText (num den : Nat) : List Char :=
  let (n, k) := roundedDigits num den
  let digits := Text.decimal n
  let exponent : Int := k + digits.length - 1
  if exponent < -4 ∨ (keptDigits : Int) ≤ exponent then
    let size := Text.decimal exponent.natAbs
    pointed 1 digits ++ 'e' :: (if exponent < 0 then '-' else '+') ::
      (if size.length < 2 then '0' :: size else size)
  else if exponent < 0 then
    pointed 1 ('0' :: (List.replicate (-exponent - 1).toNat '0' ++ digits))
  else pointed (exponent.toNat + 1) digits

/-- The text of a floating-point number inside the database. -/
def realText : Binary64 → List Char
  | .nan => []
  | .infinite negative => if negative then ['-', 'I', 'n', 'f'] else ['I', 'n', 'f']
  | .finite negative mantissa exponent =>
      let p := Binary64.power 2 exponent
      let body := if mantissa = 0 then ['0', '.', '0'] else fractionText (mantissa * p.1) p.2
      if negative && mantissa != 0 then '-' :: body else body

/-- The characters that functions on texts see; NULL has none. -/
def string : Value → Option (List Char)
  | null => none
  | integer n => some (signedDecimal n.toInt)
  | real x => some (realText x)
  | text s => some s
  | blob bytes => some (Text.ofUtf8Lossy bytes)

/-- The text under which a value is handed out: floating-point numbers with the fewest
digits and without an exponent, bytes as the text they encode. NULL has none. -/
def shown : Value → Option String
  | null => none
  | integer n => some (String.ofList (signedDecimal n.toInt))
  | real x => some (String.ofList x.text)
  | text s => some (String.ofList s)
  | blob bytes => some (String.ofList (Text.ofUtf8Lossy bytes))

/-! ### Numbers of values -/

/-- The number that a value counts as in reckoning; NULL has none. -/
def number : Value → Option Value
  | null => none
  | integer n => some (integer n)
  | real x => some (real x)
  | text s => some (leadingNumber s)
  | blob bytes => some (leadingNumber (Text.ofUtf8Lossy bytes))

/-- Whether a number differs from zero. -/
def isNonzero : Value → Bool
  | integer n => n != 0
  | real (.finite _ mantissa _) => mantissa != 0
  | real (.infinite _) => true
  | _ => false

/-- Whether a value holds as a condition; NULL neither holds nor fails. -/
def truth (v : Value) : Option Bool := v.number.map isNonzero

/-- The whole number that a number equals. -/
def whole? : Value → Option Int64
  | integer n => some n
  | real (.finite negative mantissa exponent) =>
      let x := Binary64.fraction negative mantissa exponent
      if x.1 % x.2 = 0 then int64? (x.1 / x.2) else none
  | _ => none

/-- The floating-point number of a number. -/
def toReal : Value → Binary64
  | integer n => .ofInt n.toInt
  | real x => x
  | _ => .zero false

/-- The whole number that digits at the start of a text stand for, cut to 64 bits. -/
def leadingWhole (s : List Char) : Int64 :=
  let s := s.dropWhile isSpace
  let (negative, s) := match s with
    | '-' :: r => (true, r)
    | '+' :: r => (false, r)
    | _ => (false, s)
  let n : Int := Decimal.ofDigits (s.takeWhile Decimal.isDigit)
  Binary64.saturate (if negative then -n else n)

/-- A value as a whole number: without its fraction, and cut to 64 bits. -/
def whole : Value → Int64
  | null => 0
  | integer n => n
  | real x => x.truncate
  | text s => leadingWhole s
  | blob bytes => leadingWhole (Text.ofUtf8Lossy bytes)

end Value

end RealmDirectory.Sql
