import RealmDirectory.Digest.Sha512

/-!
# BLAKE2b

A digest of up to 64 bytes from eight words of 64 bits. A block of sixteen words is
mixed in twelve rounds, each of which reads the words in an order of its own.
-/

namespace RealmDirectory.Digest.Blake2b

/-- The words of the state. -/
abbrev State := Vector UInt64 8

/-- The orders in which the rounds read the words of a block. -/
def orders : List (List Nat) :=
  [[0, 1, 2, 3, 4, 5, 6, 7, 8, 9, 10, 11, 12, 13, 14, 15],
   [14, 10, 4, 8, 9, 15, 13, 6, 1, 12, 0, 2, 11, 7, 5, 3],
   [11, 8, 12, 0, 5, 2, 15, 13, 10, 14, 3, 6, 7, 1, 9, 4],
   [7, 9, 3, 1, 13, 12, 11, 14, 2, 6, 5, 10, 4, 0, 15, 8],
   [9, 0, 5, 7, 2, 4, 10, 15, 14, 1, 11, 12, 6, 8, 3, 13],
   [2, 12, 6, 10, 0, 11, 8, 3, 4, 13, 7, 5, 15, 14, 1, 9],
   [12, 5, 1, 15, 14, 13, 4, 10, 0, 7, 6, 3, 9, 2, 8, 11],
   [13, 11, 7, 14, 12, 1, 3, 9, 5, 0, 15, 4, 8, 6, 2, 10],
   [6, 15, 14, 9, 11, 3, 0, 8, 12, 2, 13, 7, 1, 4, 10, 5],
   [10, 2, 8, 4, 7, 6, 1, 5, 15, 11, 9, 14, 3, 12, 13, 0],
   [0, 1, 2, 3, 4, 5, 6, 7, 8, 9, 10, 11, 12, 13, 14, 15],
   [14, 10, 4, 8, 9, 15, 13, 6, 1, 12, 0, 2, 11, 7, 5, 3]]

/-- The places of the state that the eight steps of a round mix: first the columns, then
the diagonals. -/
def places : List (Nat × Nat × Nat × Nat) :=
  [(0, 4, 8, 12), (1, 5, 9, 13), (2, 6, 10, 14), (3, 7, 11, 15),
   (0, 5, 10, 15), (1, 6, 11, 12), (2, 7, 8, 13), (3, 4, 9, 14)]

/-- Mixes four places of the state with two words. -/
def mix (v : Array UInt64) (at4 : Nat × Nat × Nat × Nat) (x y : UInt64) : Array UInt64 :=
  let (i, j, k, l) := at4
  let a := v.getD i 0 + v.getD j 0 + x
  let d := rotateRight64 (v.getD l 0 ^^^ a) 32
  let c := v.getD k 0 + d
  let b := rotateRight64 (v.getD j 0 ^^^ c) 24
  let a := a + b + y
  let d := rotateRight64 (d ^^^ a) 16
  let c := c + d
  let b := rotateRight64 (b ^^^ c) 63
  (((v.setIfInBounds i a).setIfInBounds j b).setIfInBounds k c).setIfInBounds l d

/-- The eight steps of a round, over what is left of the order and of the places. -/
def steps (words : Array UInt64) :
    List Nat → List (Nat × Nat × Nat × Nat) → Array UInt64 → Array UInt64
  | x :: y :: order, p :: rest, v =>
      steps words order rest (mix v p (words.getD x 0) (words.getD y 0))
  | _, _, v => v

/-- The state behind one more block; `count` bytes were read with it, and `final` marks
the last block. -/
def compress (message : ByteArray) (start count : Nat) (final : Bool) (h : State) : State :=
  let words := Array.ofFn fun i : Fin 16 => word64Little message (start + 8 * i.val)
  let word (i : Nat) : UInt64 := Sha512.initial.words.toArray.getD i 0
  let tail : Array UInt64 :=
    #[word 0, word 1, word 2, word 3, word 4 ^^^ count.toUInt64, word 5,
      if final then ~~~(word 6) else word 6, word 7]
  let v := orders.foldl (fun v order => steps words order places v) (h.toArray ++ tail)
  Vector.ofFn fun i => h.get i ^^^ v.getD i.val 0 ^^^ v.getD (i.val + 8) 0

/-- The BLAKE2b digest of `size` bytes, at most 64. -/
def digest (size : Nat) (message : List UInt8) : Vector UInt8 size :=
  let bytes := message.toByteArray
  let parameters : UInt64 := 0x01010000 ^^^ size.toUInt64
  let start : State :=
    Sha512.initial.words.mapFinIdx fun i w _ => if i = 0 then w ^^^ parameters else w
  let whole := (bytes.size - 1) / 128
  let h := Nat.fold whole
    (fun i _ h => compress bytes (128 * i) (128 * (i + 1)) false h) start
  bytes64Little (compress bytes (128 * whole) bytes.size true h) size

end RealmDirectory.Digest.Blake2b
