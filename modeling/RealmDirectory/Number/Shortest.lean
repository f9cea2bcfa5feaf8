import RealmDirectory.Number.Binary64

/-!
# Shortest decimals

A floating-point number is written with the fewest digits that read back as the same
number. The decimals that read back form an interval around the number; the coarsest
decimal grid with a point in that interval gives the digits, and of two such points the
nearer is taken. The point is written at its place, never with an exponent.

## Main definitions

* `Binary64.shortest`: the fewest digits of a positive number.
* `Binary64.text`: the whole text, as `2.5`, `-7`, `0.001`, `inf`.
-/

namespace RealmDirectory.Binary64

/-- The quarter units around a mantissa between which decimals read back: half a unit on
both sides, but a quarter below the least mantissa of a binade. -/
def quarterBounds (mantissa : Nat) (exponent : Int) : Nat × Nat :=
  if mantissa = Nat.pow 2 (precision - 1) ∧ minExponent < exponent then
    (4 * mantissa - 1, 4 * mantissa + 2)
  else (4 * mantissa - 2, 4 * mantissa + 2)

/-- The point of the grid of `10 ^ k` that stands for a positive number: the nearer one of
its two neighbours when both read back as the number, and none when neither does. -/
def gridPoint? (mantissa : Nat) (exponent k : Int) : Option Nat :=
  let unit := power 2 (exponent - 2)
  let grid := power 10 k
  let step := grid.1 * unit.2
  let scale := unit.1 * grid.2
  let (low, high) := quarterBounds mantissa exponent
  let readsBack := fun c : Nat =>
    if mantissa % 2 = 0 then
      decide (low * scale ≤ c * step) && decide (c * step ≤ high * scale)
    else decide (low * scale < c * step) && decide (c * step < high * scale)
  let below := 4 * mantissa * scale / step
  let rest := 2 * (4 * mantissa * scale % step)
  let nearerBelow := rest < step || (rest == step && below % 2 == 0)
  match readsBack below, readsBack (below + 1) with
  | true, true => some (if nearerBelow then below else below + 1)
  | true, false => some below
  | false, true => some (below + 1)
  | false, false => none

/-- The first grid from `10 ^ k` downwards, at most `depth` grids, that has a point for a
positive number. -/
def shortestFrom (mantissa : Nat) (exponent : Int) : Nat → Int → Decimal
  | 0, k => ⟨0, k⟩
  | depth + 1, k =>
      match gridPoint? mantissa exponent k with
      | some c => ⟨c, k⟩
      | none => shortestFrom mantissa exponent depth (k - 1)

/-- The fewest digits that read back as a positive number. The search starts at a power
of ten above the number and is over before the grid of `10 ^ (-1074)`, on which every
number lies. -/
def shortest (mantissa : Nat) (exponent : Int) : Decimal :=
  let p := power 2 exponent
  let top := (Text.decimal (mantissa * p.1 / p.2 + 1)).length
  shortestFrom mantissa exponent (top + 1075) top

/-- A decimal with its point in place. -/
def positional (d : Decimal) : List Char :=
  let digits := Text.decimal d.digits
  if 0 ≤ d.exponent then digits ++ List.replicate d.exponent.toNat '0'
  else
    let places := (-d.exponent).toNat
    let padded := List.replicate (places + 1 - digits.length) '0' ++ digits
    let whole := padded.length - places
    padded.take whole ++ '.' :: padded.drop whole

/-- The text of a number. -/
def text : Binary64 → List Char
  | nan => ['N', 'a', 'N']
  | infinite negative => signed negative ['i', 'n', 'f']
  | finite negative mantissa exponent =>
      signed negative
        (if mantissa = 0 then ['0'] else positional (shortest mantissa exponent))
where
  /-- A text behind its sign. -/
  signed (negative : Bool) (s : List Char) : List Char := if negative then '-' :: s else s

end RealmDirectory.Binary64
