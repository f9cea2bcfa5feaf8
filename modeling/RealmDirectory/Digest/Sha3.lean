import RealmDirectory.Digest.Block

/-!
# SHA-3

Digests from a sponge of twenty-five lanes of 64 bits. A block is mixed into the first
lanes, and a permutation of twenty-four rounds stirs the state; the digest is read from
the first lanes. The longer the digest, the smaller the block.
-/

namespace RealmDirectory.Digest.Sha3

/-- The lanes of the sponge; lane `x + 5 * y` stands in column `x` and row `y`. -/
abbrev Lanes := Vector UInt64 25

/-- A lane rotated to the left by less than 64 places. -/
def rotateLeft (x : UInt64) (k : UInt64) : UInt64 :=
  if k = 0 then x else (x <<< k) ||| (x >>> (64 - k))

/-- The constant that each round mixes into the first lane. -/
def roundConstants : List UInt64 :=
  [0x0000000000000001, 0x0000000000008082, 0x800000000000808a, 0x8000000080008000,
   0x000000000000808b, 0x0000000080000001, 0x8000000080008081, 0x8000000000008009,
   0x000000000000008a, 0x0000000000000088, 0x0000000080008009, 0x000000008000000a,
   0x000000008000808b, 0x800000000000008b, 0x8000000000008089, 0x8000000000008003,
   0x8000000000008002, 0x8000000000000080, 0x000000000000800a, 0x800000008000000a,
   0x8000000080008081, 0x8000000000008080, 0x0000000080000001, 0x8000000080008008]

/-- The rotation of each lane. -/
def rotations : Vector UInt64 25 :=
  #v[0, 1, 62, 28, 27, 36, 44, 6, 55, 20, 3, 10, 43, 25, 39, 41, 45, 15, 21, 8, 18, 2, 61,
    56, 14]

/-- The lane in column `x` and row `y`, both counted around. -/
def lane (a : Lanes) (x y : Nat) : UInt64 := a.toArray.getD (x % 5 + 5 * (y % 5)) 0

/-- Mixes the parities of the neighbouring columns into each lane. -/
def mixColumns (a : Lanes) : Lanes :=
  let c : Vector UInt64 5 := Vector.ofFn fun x =>
    lane a x 0 ^^^ lane a x 1 ^^^ lane a x 2 ^^^ lane a x 3 ^^^ lane a x 4
  Vector.ofFn fun i =>
    a.get i ^^^ (c.toArray.getD ((i.val + 4) % 5) 0 ^^^
      rotateLeft (c.toArray.getD ((i.val + 1) % 5) 0) 1)

/-- Rotates the lanes. -/
def rotateLanes (a : Lanes) : Lanes :=
  Vector.ofFn fun i => rotateLeft (a.get i) (rotations.get i)

/-- Moves the lanes: the lane in column `x` and row `y` comes from column `x + 3 * y` and
row `x`. -/
def moveLanes (a : Lanes) : Lanes :=
  Vector.ofFn fun i => lane a (i.val % 5 + 3 * (i.val / 5)) (i.val % 5)

/-- Mixes each lane with its two right neighbours. -/
def mixRows (a : Lanes) : Lanes :=
  Vector.ofFn fun i =>
    a.get i ^^^ (~~~(lane a (i.val % 5 + 1) (i.val / 5)) &&& lane a (i.val % 5 + 2) (i.val / 5))

/-- One round. -/
def round (a : Lanes) (constant : UInt64) : Lanes :=
  let b := mixRows (moveLanes (rotateLanes (mixColumns a)))
  b.set 0 (b[0] ^^^ constant)

/-- The twenty-four rounds. -/
def permute (a : Lanes) : Lanes := roundConstants.foldl round a

/-- The message filled to whole blocks of `rate` bytes. -/
def pad (rate : Nat) (message : ByteArray) : ByteArray :=
  let n := rate - message.size % rate
  if n = 1 then message.push 0x86
  else (appendZeros (message.push 0x06) (n - 2)).push 0x80

/-- The sponge behind one more block. -/
def absorb (rate : Nat) (message : ByteArray) (a : Lanes) (start : Nat) : Lanes :=
  permute (Vector.ofFn fun i =>
    if 8 * i.val < rate then a.get i ^^^ word64Little message (start + 8 * i.val) else a.get i)

/-- The SHA-3 digest of `size` bytes. -/
def digest (size : Nat) (message : List UInt8) : Vector UInt8 size :=
  let rate := 200 - 2 * size
  let padded := pad rate message.toByteArray
  bytes64Little (foldBlocks rate padded (absorb rate padded) (Vector.replicate 25 0)) size

end RealmDirectory.Digest.Sha3
