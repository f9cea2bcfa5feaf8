import RealmDirectory.Sql.Collation
import RealmDirectory.Sql.Fault
import RealmDirectory.Sql.Operator
import RealmDirectory.Text.Hex

/-!
# Functions

Functions of one row take values and give a value; functions of a group take the values
that an expression has on the rows of the group. Most functions of one row are NULL when
an argument is, and functions of a group pass over NULL.

## Main definitions

* `Function.ofName?`, `Function.apply`: the functions of one row.
* `Aggregate.ofName?`, `Aggregate.apply`: the functions of a group.
-/

namespace RealmDirectory.Sql

/-! ### Functions of one row -/

/-- The functions of one row. -/
inductive Function where
  | upper
  | lower
  | length
  | trim
  | trimStart
  | trimEnd
  | coalesce
  | nullif
  | typeof
  | abs
  | round
  | part
  | replace
  | position
  | hex
  | least
  | greatest
  deriving DecidableEq, Repr

namespace Function

/-- The functions by name, each with the least and the greatest number of arguments. -/
def named : List (String × Nat × Nat × Function) :=
  [("UPPER", 1, 1, upper), ("LOWER", 1, 1, lower), ("LENGTH", 1, 1, length),
    ("TRIM", 1, 2, trim), ("LTRIM", 1, 2, trimStart), ("RTRIM", 1, 2, trimEnd),
    ("COALESCE", 2, 1000, coalesce), ("IFNULL", 2, 2, coalesce), ("NULLIF", 2, 2, nullif),
    ("TYPEOF", 1, 1, typeof), ("ABS", 1, 1, abs), ("ROUND", 1, 2, round),
    ("SUBSTR", 2, 3, part), ("SUBSTRING", 2, 3, part), ("REPLACE", 3, 3, replace),
    ("INSTR", 2, 2, position), ("HEX", 1, 1, hex), ("MIN", 2, 1000, least),
    ("MAX", 2, 1000, greatest)]

/-- The function that a name in capitals means for a number of arguments. -/
def ofName? (name : List Char) (count : Nat) : Option Function :=
  (named.find? fun f => f.1.toList == name && f.2.1 ≤ count && count ≤ f.2.2.1).map
    fun f => f.2.2.2

/-- The characters before the first NUL. -/
def untilNul (s : List Char) : List Char := s.takeWhile (· != '\x00')

/-- The name of a value's kind. -/
def kindName : Value → String
  | .null => "null"
  | .integer _ => "integer"
  | .real _ => "real"
  | .text _ => "text"
  | .blob _ => "blob"

/-- A text made from the text of a value. -/
def mapText (f : List Char → List Char) (v : Value) : Value :=
  match v.string with
  | some s => .text (f s)
  | none => .null

/-- The number of characters of a value, or of bytes. -/
def lengthOf : Value → Value
  | .blob bytes => .integer (Int64.ofNat bytes.length)
  | v => match v.string with
    | some s => .integer (Int64.ofNat (untilNul s).length)
    | none => .null

/-- The characters that trimming removes: spaces, or those of a second value. -/
def trimmed? : List Value → Option (List Char)
  | [] => some [' ']
  | v :: _ => v.string

/-- A text without certain characters at its ends. -/
def trimText (atStart atEnd : Bool) (v : Value) (more : List Value) : Value :=
  match trimmed? more with
  | none => .null
  | some set =>
      mapText (fun s =>
        let s := if atStart then s.dropWhile set.contains else s
        if atEnd then Text.dropEndWhile set.contains s else s) v

/-- The first value of a list that is not NULL. -/
def firstValue : List Value → Value
  | [] => .null
  | .null :: l => firstValue l
  | v :: _ => v

/-- The size of a number; that of the least whole number has more than 64 bits. -/
def sizeOf (v : Value) : Except Fault Value :=
  match v with
  | .null => .ok .null
  | .integer n =>
      match int64? n.toInt.natAbs with
      | some m => .ok (.integer m)
      | none => .error .overflow
  | v =>
      match v.number.map Value.toReal with
      | some (.finite _ m e) => .ok (.real (.finite false m e))
      | some (.infinite _) => .ok (.real (.infinite false))
      | _ => .ok .null

/-- The bound above which floating-point numbers have no fraction. -/
def wholeBound : Nat := 0x10000000000000

/-- A fraction rounded to a number of decimal places; a half goes away from zero. -/
def roundedTo (places : Nat) (negative : Bool) (mantissa : Nat) (exponent : Int) : Binary64 :=
  let p := Binary64.power 2 exponent
  let scale := Nat.pow 10 places
  let num := mantissa * p.1
  if wholeBound * p.2 < num then .finite negative mantissa exponent
  else
    let n : Int := (2 * num * scale + p.2) / (2 * p.2)
    .ofFraction (negative && places != 0) (if negative then -n else n) scale

/-- A number rounded to decimal places, of which there are at most thirty. -/
def rounded (v : Value) (places : Int64) : Value :=
  match v.number.map Value.toReal with
  | some (.finite negative m e) => .real (roundedTo (min places.toNatClampNeg 30) negative m e)
  | some x => .real x
  | none => .null

/-- The place and the number of items that a part of a list has, for a list of `size`
items: places count from 1, or from the end when they are negative, and a negative number
of items goes back from the place. -/
def partBounds (size start : Int) (count : Option Int) : Nat × Nat :=
  let goesBack := (count.getD 0) < 0
  let n : Int := match count with
    | some n => n.natAbs
    | none => size + start.natAbs + 1
  let (first, n) :=
    if start < 0 then
      if start + size < 0 then (0, max 0 (n + (start + size))) else (start + size, n)
    else if 0 < start then (start - 1, n)
    else (0, if 0 < n then n - 1 else n)
  let (first, n) :=
    if goesBack then if first - n < 0 then (0, first) else (first - n, n) else (first, n)
  (first.toNat, n.toNat)

/-- A part of a list. -/
def partOf {α : Type} (l : List α) (start : Int) (count : Option Int) : List α :=
  let bounds := partBounds l.length start count
  (l.drop bounds.1).take bounds.2

/-- A part of a text or of bytes. -/
def partOfValue (v start : Value) (count : Option Value) : Value :=
  let from? := if start == .null then none else some start.whole.toInt
  let count? := match count with
    | none => some none
    | some .null => none
    | some n => some (some n.whole.toInt)
  match from?, count?, v with
  | some s, some n, .blob bytes => .blob (partOf bytes s n)
  | some s, some n, v => mapText (fun t => partOf (untilNul t) s n) v
  | _, _, _ => .null

/-- The place of a piece in a list, counted from 1; 0 when it does not occur. -/
def placeOf {α : Type} [BEq α] (piece l : List α) : Nat :=
  ((List.range (l.length + 1)).find? fun i => piece.isPrefixOf (l.drop i)).elim 0 (· + 1)

/-- The place of a text in a text, or of bytes in bytes. -/
def placeOfValue : Value → Value → Value
  | .blob l, .blob piece => .integer (Int64.ofNat (placeOf piece l))
  | v, w =>
      match v.string, w.string with
      | some l, some piece => .integer (Int64.ofNat (placeOf piece l))
      | _, _ => .null

/-- A text with every piece replaced; an empty piece does not occur. -/
def replaced (v piece new : Value) : Value :=
  match v.string, piece.string, new.string with
  | some s, some [], _ => .text s
  | some s, some p, some n => .text (Text.replace p n s)
  | _, _, _ => .null

/-- The bytes of a value. -/
def bytesOf : Value → List UInt8
  | .blob bytes => bytes
  | v => Text.utf8Bytes (v.string.getD [])

/-- The better one of two values: the later one of equals for the least. -/
def better (wanted : Ordering) (best v : Value) : Value :=
  let order := Value.compare v best
  if order == wanted || (wanted == .lt && order == .eq) then v else best

/-- The extreme of values; NULL when one of them is. -/
def extremeOf (wanted : Ordering) : List Value → Value
  | [] => .null
  | v :: l => if (v :: l).contains .null then .null else l.foldl (better wanted) v

/-- The value of a function. -/
def apply : Function → List Value → Except Fault Value
  | upper, v :: _ => .ok (mapText (List.map Char.toUpper) v)
  | lower, v :: _ => .ok (mapText (List.map Char.toLower) v)
  | length, v :: _ => .ok (lengthOf v)
  | trim, v :: more => .ok (trimText true true v more)
  | trimStart, v :: more => .ok (trimText true false v more)
  | trimEnd, v :: more => .ok (trimText false true v more)
  | coalesce, l => .ok (firstValue l)
  | nullif, a :: b :: _ =>
      .ok (if b != .null && Value.compare a b == .eq then .null else a)
  | typeof, v :: _ => .ok (.text (kindName v).toList)
  | abs, v :: _ => sizeOf v
  | round, [v] => .ok (rounded v 0)
  | round, v :: n :: _ => .ok (if n == .null then .null else rounded v n.whole)
  | part, v :: start :: more => .ok (partOfValue v start more.head?)
  | replace, v :: p :: n :: _ => .ok (replaced v p n)
  | position, v :: p :: _ => .ok (placeOfValue v p)
  | hex, v :: _ => .ok (.text ((Text.toHex (bytesOf v)).map Char.toUpper))
  | least, l => .ok (extremeOf .lt l)
  | greatest, l => .ok (extremeOf .gt l)
  | _, _ => .ok .null

end Function

/-! ### Functions of a group -/

/-- The functions of a group of rows. -/
inductive Aggregate where
  | count
  | min
  | max
  | sum
  | total
  | average
  | joined
  deriving DecidableEq, Repr

namespace Aggregate

/-- The functions by name, with the greatest number of arguments; every one of them needs
one. -/
def named : List (String × Nat × Aggregate) :=
  [("COUNT", 1, count), ("MIN", 1, min), ("MAX", 1, max), ("SUM", 1, sum),
    ("TOTAL", 1, total), ("AVG", 1, average), ("GROUP_CONCAT", 2, joined),
    ("STRING_AGG", 2, joined)]

/-- The function that a name in capitals means for a number of arguments. -/
def ofName? (name : List Char) (count : Nat) : Option Aggregate :=
  (named.find? fun f => f.1.toList == name && 1 ≤ count && count ≤ f.2.1).map fun f => f.2.2

/-- The extreme of values by an order; the first of equals, and NULL without values. -/
def extreme (wanted : Ordering) : List Value → Value
  | [] => .null
  | v :: l => l.foldl (fun best w => if Value.compare w best == wanted then w else best) v

/-- The number that a value adds to a sum: a text that is no whole number counts as a
floating-point number. -/
def addend (v : Value) : Value :=
  match v with
  | .integer n => .integer n
  | .text s =>
      match Value.number? s with
      | some n => n
      | none => .real (Value.leadingNumber s).toReal
  | v => .real ((v.number.map Value.toReal).getD (.zero false))

/-- The sum of whole numbers. -/
def wholeSum (l : List Value) : Int := (l.map fun v => v.whole.toInt).foldl (· + ·) 0

/-- The sum of numbers, each of them with its fraction. -/
def realSum (l : List Value) : Binary64 := Binary64.sum (l.map Value.toReal)

/-- Whether a value is a whole number. -/
def isWhole : Value → Bool
  | .integer _ => true
  | _ => false

/-- The sum of numbers: a whole number when all of them are. -/
def sumOf (l : List Value) : Except Fault Value :=
  if l.isEmpty then .ok .null
  else if l.all isWhole then
    match int64? (wholeSum l) with
    | some n => .ok (.integer n)
    | none => .error .overflow
  else .ok (Operator.ofReal (realSum l))

/-- The sum of numbers as a floating-point number. -/
def totalOf (l : List Value) : Binary64 :=
  if l.all isWhole then .ofInt (wholeSum l) else realSum l

/-- The texts of values behind one another, each but the first with its separator in
front. -/
def joinedText : List (Value × List Char) → List Char
  | [] => []
  | (v, _) :: l => (v.string.getD []) ++ l.flatMap fun p => p.2 ++ (p.1.string.getD [])

/-- The values of a group without those that repeat one before them. -/
def onlyOnce : List (List Value) → List (List Value) → List (List Value)
  | _, [] => []
  | seen, a :: l =>
      let same (b : List Value) : Bool :=
        Value.compare (a.headD .null) (b.headD .null) == .eq
      if seen.any same then onlyOnce seen l else a :: onlyOnce (a :: seen) l

/-- The value of a function on the arguments that it has on the rows of a group. -/
def apply (f : Aggregate) (once : Bool) (l : List (List Value)) : Except Fault Value :=
  let present := l.filter fun a => a.headD .null != .null
  let present := if once then onlyOnce [] present else present
  let values := present.map fun a => a.headD .null
  match f with
  | count => .ok (.integer (Int64.ofNat values.length))
  | min => .ok (extreme .lt values)
  | max => .ok (extreme .gt values)
  | sum => sumOf (values.map addend)
  | total => .ok (Operator.ofReal (totalOf (values.map addend)))
  | average =>
      .ok (if values.isEmpty then .null
        else Operator.ofReal ((totalOf (values.map addend)).div (.ofInt values.length)))
  | joined =>
      let separator (a : List Value) : List Char :=
        match a with
        | _ :: s :: _ => s.string.getD []
        | _ => [',']
      .ok (if values.isEmpty then .null
        else .text (joinedText (present.map fun a => (a.headD .null, separator a))))

end Aggregate

end RealmDirectory.Sql
