/-!
# Blocks of a message

Digests read a message in blocks of equal size. The message is first padded: a one bit,
zeros, and the message's length in bits fill its last block.

## Main definitions

* `word32Big`, `word32Little`, `word64Big`, `word64Little`: words at a place of a text.
* `bytes32Big`, `bytes32Little`, `bytes64Big`, `bytes64Little`: the bytes of words.
* `pad`: the padded message.
* `foldBlocks`: a state carried over the blocks of a message.
-/

namespace RealmDirectory.Digest

/-- The byte at a place; behind the end there are zeros. -/
def byteAt (b : ByteArray) (i : Nat) : UInt8 := if h : i < b.size then b[i] else 0

/-! ### Words -/

/-- The word of 32 bits at a place, its highest byte first. -/
def word32Big (b : ByteArray) (i : Nat) : UInt32 :=
  ((byteAt b i).toUInt32 <<< 24) ||| ((byteAt b (i + 1)).toUInt32 <<< 16) |||
    ((byteAt b (i + 2)).toUInt32 <<< 8) ||| (byteAt b (i + 3)).toUInt32

/-- The word of 32 bits at a place, its lowest byte first. -/
def word32Little (b : ByteArray) (i : Nat) : UInt32 :=
  (byteAt b i).toUInt32 ||| ((byteAt b (i + 1)).toUInt32 <<< 8) |||
    ((byteAt b (i + 2)).toUInt32 <<< 16) ||| ((byteAt b (i + 3)).toUInt32 <<< 24)

/-- The word of 64 bits at a place, its highest byte first. -/
def word64Big (b : ByteArray) (i : Nat) : UInt64 :=
  ((word32Big b i).toUInt64 <<< 32) ||| (word32Big b (i + 4)).toUInt64

/-- The word of 64 bits at a place, its lowest byte first. -/
def word64Little (b : ByteArray) (i : Nat) : UInt64 :=
  (word32Little b i).toUInt64 ||| ((word32Little b (i + 4)).toUInt64 <<< 32)

/-- The bytes of words of 32 bits, the highest byte of each first. -/
def bytes32Big {n : Nat} (words : Vector UInt32 n) (size : Nat) : Vector UInt8 size :=
  Vector.ofFn fun i =>
    (words.toArray.getD (i.val / 4) 0 >>> (8 * (3 - i.val % 4)).toUInt32).toUInt8

/-- The bytes of words of 32 bits, the lowest byte of each first. -/
def bytes32Little {n : Nat} (words : Vector UInt32 n) (size : Nat) : Vector UInt8 size :=
  Vector.ofFn fun i =>
    (words.toArray.getD (i.val / 4) 0 >>> (8 * (i.val % 4)).toUInt32).toUInt8

/-- The bytes of words of 64 bits, the highest byte of each first. -/
def bytes64Big {n : Nat} (words : Vector UInt64 n) (size : Nat) : Vector UInt8 size :=
  Vector.ofFn fun i =>
    (words.toArray.getD (i.val / 8) 0 >>> (8 * (7 - i.val % 8)).toUInt64).toUInt8

/-- The bytes of words of 64 bits, the lowest byte of each first. -/
def bytes64Little {n : Nat} (words : Vector UInt64 n) (size : Nat) : Vector UInt8 size :=
  Vector.ofFn fun i =>
    (words.toArray.getD (i.val / 8) 0 >>> (8 * (i.val % 8)).toUInt64).toUInt8

/-- A word of 32 bits, rotated to the left. -/
@[inline] def rotateLeft32 (x : UInt32) (k : UInt32) : UInt32 :=
  (x <<< k) ||| (x >>> (32 - k))

/-- A word of 32 bits, rotated to the right. -/
@[inline] def rotateRight32 (x : UInt32) (k : UInt32) : UInt32 :=
  (x >>> k) ||| (x <<< (32 - k))

/-- A word of 64 bits, rotated to the right by 1 to 63 places. -/
@[inline] def rotateRight64 (x : UInt64) (k : UInt64) : UInt64 :=
  (x >>> k) ||| (x <<< (64 - k))

/-! ### Padding -/

/-- The bytes of a text in UTF-8. -/
def utf8 (s : String) : List UInt8 := s.toUTF8.toList

/-- Appends a number of zeros. -/
def appendZeros (b : ByteArray) (n : Nat) : ByteArray :=
  Nat.fold n (fun _ _ b => b.push 0) b

/-- Appends a number of `size` bytes, highest byte first. -/
def appendBig (b : ByteArray) (size value : Nat) : ByteArray :=
  Nat.fold size (fun i _ b => b.push (value >>> (8 * (size - 1 - i))).toUInt8) b

/-- Appends a number of `size` bytes, lowest byte first. -/
def appendLittle (b : ByteArray) (size value : Nat) : ByteArray :=
  Nat.fold size (fun i _ b => b.push (value >>> (8 * i)).toUInt8) b

/-- How the length of a message stands at its end. -/
inductive LengthOrder where
  /-- Its highest byte first. -/
  | big
  /-- Its lowest byte first. -/
  | little

/-- Pads the end of a message to whole blocks. `before` counts the bytes that were read
before it, and the length of everything takes the last `lengthSize` bytes. -/
def pad (order : LengthOrder) (blockSize lengthSize before : Nat) (message : ByteArray) :
    ByteArray :=
  let marked := message.push 0x80
  let filled := (marked.size + lengthSize) % blockSize
  let zeros := if filled = 0 then 0 else blockSize - filled
  let bits := 8 * (before + message.size)
  match order with
  | .big => appendBig (appendZeros marked zeros) lengthSize bits
  | .little => appendLittle (appendZeros marked zeros) lengthSize bits

/-- Carries a state over the blocks of a message; `step` is given the place at which a
block starts. -/
def foldBlocks {σ : Type} (blockSize : Nat) (message : ByteArray)
    (step : σ → Nat → σ) (state : σ) : σ :=
  Nat.fold (message.size / blockSize) (fun i _ s => step s (blockSize * i)) state

end RealmDirectory.Digest
