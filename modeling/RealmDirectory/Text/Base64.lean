/-!
# Base64

Three bytes are written as four letters of an alphabet of sixty-four. A last group of one
or two bytes takes two or three letters; with padding, equals signs fill it up. Reading
is strict: it takes no padding, and refuses letters outside the alphabet and bits behind
the last byte that are not zero.

## Main definitions

* `Alphabet.standard`, `Alphabet.dotted`: the alphabets.
* `Alphabet.encode`, `Alphabet.decode?`: writing and strict reading, without padding.
* `Alphabet.encodePadded`: writing with padding.
-/

namespace RealmDirectory.Text

/-- The sixty-four letters that stand for the numbers below 64. -/
structure Alphabet where
  letters : List Char

namespace Alphabet

/-- The common alphabet. -/
def standard : Alphabet :=
  ⟨"ABCDEFGHIJKLMNOPQRSTUVWXYZabcdefghijklmnopqrstuvwxyz0123456789+/".toList⟩

/-- The alphabet that starts with a dot and a slash. -/
def dotted : Alphabet :=
  ⟨"./ABCDEFGHIJKLMNOPQRSTUVWXYZabcdefghijklmnopqrstuvwxyz0123456789".toList⟩

/-- The letter of a number below 64. -/
def letter (a : Alphabet) (n : Nat) : Char := a.letters.getD n 'A'

/-- The number of a letter. -/
def value? (a : Alphabet) (c : Char) : Option Nat := a.letters.findIdx? (· == c)

/-- Writes bytes without padding. -/
def encode (a : Alphabet) : List UInt8 → List Char
  | [] => []
  | [x] => [a.letter (x.toNat / 4), a.letter (x.toNat % 4 * 16)]
  | [x, y] =>
      [a.letter (x.toNat / 4), a.letter (x.toNat % 4 * 16 + y.toNat / 16),
        a.letter (y.toNat % 16 * 4)]
  | x :: y :: z :: r =>
      a.letter (x.toNat / 4) :: a.letter (x.toNat % 4 * 16 + y.toNat / 16) ::
        a.letter (y.toNat % 16 * 4 + z.toNat / 64) :: a.letter (z.toNat % 64) ::
        a.encode r

/-- Writes bytes, and fills the last group of letters with equals signs. -/
def encodePadded (a : Alphabet) (bytes : List UInt8) : List Char :=
  a.encode bytes ++ List.replicate ((3 - bytes.length % 3) % 3) '='

/-- Reads the bytes of letters that were written without padding. -/
def decode? (a : Alphabet) : List Char → Option (List UInt8)
  | [] => some []
  | [_] => none
  | [p, q] => do
      let p ← a.value? p
      let q ← a.value? q
      if q % 16 = 0 then some [(p * 4 + q / 16).toUInt8] else none
  | [p, q, r] => do
      let p ← a.value? p
      let q ← a.value? q
      let r ← a.value? r
      if r % 4 = 0 then some [(p * 4 + q / 16).toUInt8, (q % 16 * 16 + r / 4).toUInt8]
      else none
  | p :: q :: r :: s :: rest => do
      let p ← a.value? p
      let q ← a.value? q
      let r ← a.value? r
      let s ← a.value? s
      let tail ← a.decode? rest
      some ((p * 4 + q / 16).toUInt8 :: (q % 16 * 16 + r / 4).toUInt8 ::
        (r % 4 * 64 + s).toUInt8 :: tail)

/-- The number of bytes in a number of letters without padding. -/
def decodedLength (letters : Nat) : Nat := letters / 4 * 3 + letters % 4 * 3 / 4

end Alphabet

end RealmDirectory.Text
