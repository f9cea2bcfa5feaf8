import RealmDirectory.Digest.Block

/-!
# Blowfish with a costly key

Blowfish is a cipher on pairs of words whose tables start as the digits of π and are then
mixed with a key. The password digest of this module mixes a key and a salt into the
tables, again and again, a number of times that doubles with each unit of cost, and then
enciphers a fixed text with them.

## Main definitions

* `piWords`: the first binary digits of π, in words.
* `Tables.encipher`: the cipher.
* `Tables.expand`: mixing a key and a salt into the tables.
* `passwordDigest`: the digest of a key.
-/

namespace RealmDirectory.Digest.Blowfish

/-! ### The digits of π -/

/-- Adds and subtracts the terms of the inverse tangent of `1 / x` in turn, from the power
`power` on, until the terms vanish. -/
def arctanTerms (square : Nat) : Nat → Nat → Nat → Nat × Nat → Nat × Nat
  | 0, _, _, sums => sums
  | fuel + 1, k, power, (plus, minus) =>
      if power = 0 then (plus, minus)
      else arctanTerms square fuel (k + 2) (power / square) (minus, plus + power / k)

/-- The inverse tangent of `1 / x` in units of `1 / one`, for at most `2 * terms` terms. -/
def arctanInverse (one terms x : Nat) : Nat :=
  let (plus, minus) := arctanTerms (x * x) (2 * terms) 1 (one / x) (0, 0)
  max plus minus - min plus minus

/-- The first `count` words of the fraction of π, which is sixteen times the inverse tangent
of 1 / 5 less four times that of 1 / 239. -/
def piWords (count : Nat) : Array UInt32 :=
  let bits := 32 * count
  let one := 1 <<< (bits + 64)
  let pi := 16 * arctanInverse one bits 5 - 4 * arctanInverse one bits 239
  let fraction := (pi % one) >>> 64
  Array.ofFn fun i : Fin count => (fraction >>> (bits - 32 * (i.val + 1))).toUInt32

/-! ### The cipher -/

/-- The tables of the cipher: eighteen words for the rounds, and four times 256 words for
substitutions. -/
structure Tables where
  rounds : Array UInt32
  boxes : Array UInt32

/-- The tables before a key is mixed in. -/
def Tables.initial : Tables :=
  let words := piWords (18 + 1024)
  ⟨words.extract 0 18, words.extract 18 (18 + 1024)⟩

/-- The substitution of a word. -/
@[inline] def substitute (boxes : Array UInt32) (x : UInt32) : UInt32 :=
  let a := boxes.getD (x >>> 24).toNat 0
  let b := boxes.getD (256 + ((x >>> 16) &&& 0xff).toNat) 0
  let c := boxes.getD (512 + ((x >>> 8) &&& 0xff).toNat) 0
  let d := boxes.getD (768 + (x &&& 0xff).toNat) 0
  ((a + b) ^^^ c) + d

/-- The last rounds of the cipher, `n` of the sixteen. -/
def encipherRounds (rounds boxes : Array UInt32) : Nat → UInt32 → UInt32 → UInt32 × UInt32
  | 0, left, right => (right ^^^ rounds.getD 17 0, left ^^^ rounds.getD 16 0)
  | n + 1, left, right =>
      let left := left ^^^ rounds.getD (15 - n) 0
      encipherRounds rounds boxes n (right ^^^ substitute boxes left) left

/-- Enciphers a pair of words. -/
def Tables.encipher (t : Tables) (x : UInt32 × UInt32) : UInt32 × UInt32 :=
  encipherRounds t.rounds t.boxes 16 x.1 x.2

/-- A word of a text that is read around and around, highest byte first. -/
def cyclicWord (bytes : ByteArray) (i : Nat) : UInt32 :=
  let byte (k : Nat) : UInt32 := (byteAt bytes ((4 * i + k) % bytes.size)).toUInt32
  (byte 0 <<< 24) ||| (byte 1 <<< 16) ||| (byte 2 <<< 8) ||| byte 3

/-- The cipher's tables while they are replaced, with the pair that was enciphered last. -/
structure Refill where
  rounds : Array UInt32
  boxes : Array UInt32
  last : UInt32 × UInt32

/-- Replaces two round words by the next pair; the salt's words are mixed in first. -/
def Refill.nextRounds (salt : Array UInt32) (s : Refill) (i : Nat) : Refill :=
  let ⟨rounds, boxes, l, r⟩ := s
  let l := l ^^^ salt.getD ((2 * i) % 4) 0
  let r := r ^^^ salt.getD ((2 * i + 1) % 4) 0
  let (l, r) := encipherRounds rounds boxes 16 l r
  ⟨(rounds.setIfInBounds (2 * i) l).setIfInBounds (2 * i + 1) r, boxes, l, r⟩

/-- Replaces two box words by the next pair; the salt's words are mixed in first. -/
def Refill.nextBoxes (salt : Array UInt32) (s : Refill) (i : Nat) : Refill :=
  let ⟨rounds, boxes, l, r⟩ := s
  let l := l ^^^ salt.getD ((2 * (i + 9)) % 4) 0
  let r := r ^^^ salt.getD ((2 * (i + 9) + 1) % 4) 0
  let (l, r) := encipherRounds rounds boxes 16 l r
  ⟨rounds, (boxes.setIfInBounds (2 * i) l).setIfInBounds (2 * i + 1) r, l, r⟩

/-- The tables with a key mixed into the round words, and then replaced by enciphering
them one after the other. The salt has four words, or none for a plain key. -/
def Tables.expand (salt : Array UInt32) (key : ByteArray) (t : Tables) : Tables :=
  let ⟨rounds, boxes⟩ := t
  let keyed := rounds.mapIdx fun i x => x ^^^ cyclicWord key i
  let start : Refill := ⟨keyed, boxes, 0, 0⟩
  let s := Nat.fold 9 (fun i _ s => s.nextRounds salt i) start
  let s := Nat.fold 512 (fun i _ s => s.nextBoxes salt i) s
  ⟨s.rounds, s.boxes⟩

/-- The tables with key and salt mixed in `n` times. -/
def Tables.repeatKeys (key salt : ByteArray) : Nat → Tables → Tables
  | 0, t => t
  | n + 1, t => repeatKeys key salt n ((t.expand #[] key).expand #[] salt)

/-! ### The digest -/

/-- The text that is enciphered. -/
def magic : List UInt8 := utf8 "OrpheanBeholderScryDoubt"

/-- Enciphers a pair of words a number of times. -/
def Tables.encipherTimes (t : Tables) : Nat → UInt32 × UInt32 → UInt32 × UInt32
  | 0, x => x
  | n + 1, x => t.encipherTimes n (t.encipher x)

/-- The digest of a key under a salt of sixteen bytes: 23 of the 24 bytes of the
enciphered text. -/
def passwordDigest (cost : Nat) (salt : Vector UInt8 16) (key : List UInt8) :
    Vector UInt8 23 :=
  let keyBytes := key.toByteArray
  let saltBytes : ByteArray := ⟨salt.toArray⟩
  let saltWords := Array.ofFn fun i : Fin 4 => cyclicWord saltBytes i.val
  let t := (Tables.initial.expand saltWords keyBytes).repeatKeys keyBytes saltBytes (Nat.pow 2 cost)
  let text := magic.toByteArray
  let word (i : Nat) : UInt32 := word32Big text (4 * i)
  let a := t.encipherTimes 64 (word 0, word 1)
  let b := t.encipherTimes 64 (word 2, word 3)
  let c := t.encipherTimes 64 (word 4, word 5)
  bytes32Big #v[a.1, a.2, b.1, b.2, c.1, c.2] 23

end RealmDirectory.Digest.Blowfish
