import RealmDirectory.Sql.Like
import RealmDirectory.Sql.Scope

/-!
# Evaluating expressions

An expression has a value on a row of a group of rows, with values bound to its marks.
Conditions have three outcomes, since NULL neither holds nor fails: a comparison with
NULL is NULL, and so is what depends on it.

## Main definitions

* `Frame`: the row, the group and the bound values.
* `Term.value`: the value of an expression.
* `Term.holds`: whether an expression holds as a condition.
-/

namespace RealmDirectory.Sql

/-- What an expression is evaluated on. -/
structure Frame where
  row : List Value
  /-- The rows that functions of a group see. -/
  group : List (List Value)
  /-- The values bound to the marks; a mark without one is NULL. -/
  bound : List Value

/-! ### Conditions -/

/-- A condition's outcome as a value. -/
def Value.ofTruth : Option Bool → Value
  | some b => .ofBool b
  | none => .null

/-- Both of two conditions: one that fails decides. -/
def bothHold : Option Bool → Option Bool → Option Bool
  | some false, _ | _, some false => some false
  | some true, some true => some true
  | _, _ => none

/-- One of two conditions: one that holds decides. -/
def oneHolds : Option Bool → Option Bool → Option Bool
  | some true, _ | _, some true => some true
  | some false, some false => some false
  | _, _ => none

/-- What an expression brings to a comparison: its affinity, and its collation when it has
one. -/
structure Manner where
  affinity : Affinity
  collation : Option Collation

/-- Two values compared in the manner of their expressions, the left collation first; none
when one of them is NULL. -/
def comparedWith (left right : Manner) (a b : Value) : Option Ordering :=
  let (onLeft, onRight) := Affinity.forComparison left.affinity right.affinity
  let collation := (left.collation.or right.collation).getD .binary
  match a, b with
  | .null, _ | _, .null => none
  | a, b => some (collation.compare (onLeft.apply a) (onRight.apply b))

/-- Whether two values are the same, NULL included. -/
def sameWith (left right : Manner) (a b : Value) : Bool :=
  match a, b with
  | .null, .null => true
  | .null, _ | _, .null => false
  | a, b => comparedWith left right a b == some .eq

/-- Whether a value is among others, which are compared in the manner of the value. -/
def amongWith (m : Manner) (v : Value) (l : List Value) : Option Bool :=
  let affinity : Affinity := if m.affinity.isNumeric then .numeric else m.affinity
  let same (w : Value) : Option Bool :=
    match v, w with
    | .null, _ | _, .null => none
    | v, w =>
        some ((m.collation.getD .binary).compare (affinity.apply v) (affinity.apply w) == .eq)
  l.foldr (fun w rest => oneHolds (same w) rest) (some false)

/-! ### Patterns -/

/-- The bytes that a pattern may have. -/
def maxPatternBytes : Nat := 50000

/-- Whether a value matches a pattern; none when one of them is NULL. -/
def matchesPattern (escape : Option Char) (subject pattern : Value) :
    Except Fault (Option Bool) :=
  match subject.string, pattern.string with
  | some s, some p =>
      if maxPatternBytes < (Text.utf8Bytes p).length then .error .longPattern
      else .ok (some (Pattern.likes Pattern.sameLetter escape 
        (Function.untilNul p) (Function.untilNul s)))
  | _, _ => .ok none

/-- The same with an escape, which has to be one character. -/
def matchesEscaped (subject pattern escape : Value) : Except Fault (Option Bool) :=
  match escape.string.map Function.untilNul with
  | none => .ok none
  | some [c] => matchesPattern (some c) subject pattern
  | some _ => .error .badEscape

/-! ### Expressions -/

namespace Term

/-- The affinity of an expression: that of a column, or of the type it is turned into. -/
def affinity : Term → Affinity
  | .column c => c.affinity
  | .cast _ a => a
  | .collate e _ => affinity e
  | _ => .none

/-- The collation that is written for an expression. -/
def writtenCollation? : Term → Option Collation
  | .collate _ c => some c
  | .positive e | .negative e | .cast e _ => writtenCollation? e
  | _ => none

/-- The collation of an expression: that of a column, when none is written. -/
def columnCollation? : Term → Option Collation
  | .column c => some c.collation
  | .positive e | .cast e _ => columnCollation? e
  | _ => none

/-- What two expressions bring to their comparison: a collation that is written for either
one comes before those of columns. -/
def manners (a b : Term) : Manner × Manner :=
  match a.writtenCollation?, b.writtenCollation? with
  | none, none => (⟨a.affinity, a.columnCollation?⟩, ⟨b.affinity, b.columnCollation?⟩)
  | c, d => (⟨a.affinity, c⟩, ⟨b.affinity, d⟩)

/-- What an expression brings to an order or to the comparison with several values. -/
def manner (e : Term) : Manner := ⟨e.affinity, e.writtenCollation?.or e.columnCollation?⟩

mutual

/-- Whether an expression has a function of a group. -/
def isAggregate : Term → Bool
  | .literal _ | .mark _ | .column _ => false
  | .positive e | .negative e | .complement e | .not e | .outcome _ e | .cast e _ | .collate e _ =>
      isAggregate e
  | .and a b | .or a b | .compare _ a b | .same a b | .append a b | .like a b
  | .operate _ a b => isAggregate a || isAggregate b
  | .likeEscape a b c | .choose a b c => isAggregate a || isAggregate b || isAggregate c
  | .among e l => isAggregate e || anyAggregate l
  | .call _ l => anyAggregate l
  | .countRows | .aggregate _ _ _ => true

/-- Whether an expression of a list has a function of a group. -/
def anyAggregate : List Term → Bool
  | [] => false
  | e :: l => isAggregate e || anyAggregate l

end

/-! ### Casts -/

/-- A value turned into the kind of an affinity, whatever is lost by it. -/
def castTo (a : Affinity) (v : Value) : Value :=
  match a, v with
  | _, .null => .null
  | .text, v => .text (v.string.getD [])
  | .integer, v => .integer v.whole
  | .real, v => .real ((v.number.map Value.toReal).getD (.zero false))
  | .numeric, .text s => Affinity.wholeOr (Value.leadingNumber s)
  | .numeric, .blob bytes => Affinity.wholeOr (Value.leadingNumber (Text.ofUtf8Lossy bytes))
  | .numeric, v => v
  | .none, v => .blob (Function.bytesOf v)

mutual

/-- The value of an expression. -/
def value (f : Frame) : Term → Except Fault Value
  | .literal v => .ok v
  | .mark i => .ok (f.bound.getD i .null)
  | .column c => .ok (f.row.getD c.index .null)
  | .positive e => value f e
  | .negative e => do return Operator.sub.apply (.integer 0) (← value f e)
  | .complement e => do
      match ← value f e with
      | .null => return .null
      | v => return .integer (~~~ v.whole)
  | .not e => do return .ofTruth ((← value f e).truth.map (!·))
  | .and a b => do return .ofTruth (bothHold (← value f a).truth (← value f b).truth)
  | .or a b => do return .ofTruth (oneHolds (← value f a).truth (← value f b).truth)
  | .compare c a b => do
      let m := manners a b
      let order := comparedWith m.1 m.2 (← value f a) (← value f b)
      return .ofTruth (order.map c.holds)
  | .same a b => do
      let m := manners a b
      return .ofBool (sameWith m.1 m.2 (← value f a) (← value f b))
  | .outcome wanted e => do return .ofBool ((← value f e).truth == some wanted)
  | .among e l => do
      let v ← value f e
      return .ofTruth (amongWith (manner e) v (← values f l))
  | .operate o a b => do return o.apply (← value f a) (← value f b)
  | .append a b => do
      match (← value f a).string, (← value f b).string with
      | some s, some t => return .text (s ++ t)
      | _, _ => return .null
  | .like a b => do return .ofTruth (← matchesPattern none (← value f a) (← value f b))
  | .likeEscape a b c => do
      return .ofTruth (← matchesEscaped (← value f a) (← value f b) (← value f c))
  | .choose c a b => do
      let condition ← value f c
      if condition.truth == some true then value f a else value f b
  | .cast e a => do return castTo a (← value f e)
  | .collate e _ => value f e
  | .call g l => do g.apply (← values f l)
  | .countRows => .ok (.integer (Int64.ofNat f.group.length))
  | .aggregate g once l => do
      g.apply once (← f.group.mapM fun row => values { f with row, group := [] } l)

/-- The values of a list of expressions. -/
def values (f : Frame) : List Term → Except Fault (List Value)
  | [] => .ok []
  | e :: l => do return (← value f e) :: (← values f l)

end

/-- Whether an expression holds as a condition; none counts as holding. -/
def holds (f : Frame) : Option Term → Except Fault Bool
  | none => .ok true
  | some e => do return (← value f e).truth == some true

end Term

end RealmDirectory.Sql
