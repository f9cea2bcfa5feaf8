import RealmDirectory.Digest.Block

/-!
# SHA-256 and SHA-224

Digests from eight words of 32 bits. The sixteen words of a block are spread over
sixty-four steps. The shorter digest starts from other words and drops the last one.

The state behind a prefix of a message can be kept and continued, which keyed digests
use.
-/

namespace RealmDirectory.Digest.Sha256

/-- The eight words of the state. -/
structure State where
  a : UInt32
  b : UInt32
  c : UInt32
  d : UInt32
  e : UInt32
  f : UInt32
  g : UInt32
  h : UInt32

/-- The constant of each step: the cube roots of the first primes, fractions only. -/
def constants : Vector UInt32 64 :=
  #v[0x428a2f98, 0x71374491, 0xb5c0fbcf, 0xe9b5dba5, 0x3956c25b, 0x59f111f1, 0x923f82a4,
    0xab1c5ed5, 0xd807aa98, 0x12835b01, 0x243185be, 0x550c7dc3, 0x72be5d74, 0x80deb1fe,
    0x9bdc06a7, 0xc19bf174, 0xe49b69c1, 0xefbe4786, 0x0fc19dc6, 0x240ca1cc, 0x2de92c6f,
    0x4a7484aa, 0x5cb0a9dc, 0x76f988da, 0x983e5152, 0xa831c66d, 0xb00327c8, 0xbf597fc7,
    0xc6e00bf3, 0xd5a79147, 0x06ca6351, 0x14292967, 0x27b70a85, 0x2e1b2138, 0x4d2c6dfc,
    0x53380d13, 0x650a7354, 0x766a0abb, 0x81c2c92e, 0x92722c85, 0xa2bfe8a1, 0xa81a664b,
    0xc24b8b70, 0xc76c51a3, 0xd192e819, 0xd6990624, 0xf40e3585, 0x106aa070, 0x19a4c116,
    0x1e376c08, 0x2748774c, 0x34b0bcb5, 0x391c0cb3, 0x4ed8aa4a, 0x5b9cca4f, 0x682e6ff3,
    0x748f82ee, 0x78a5636f, 0x84c87814, 0x8cc70208, 0x90befffa, 0xa4506ceb, 0xbef9a3f7,
    0xc67178f2]

/-- The state before the first block of a SHA-256 message. -/
def initial : State :=
  ⟨0x6a09e667, 0xbb67ae85, 0x3c6ef372, 0xa54ff53a,
    0x510e527f, 0x9b05688c, 0x1f83d9ab, 0x5be0cd19⟩

/-- The state before the first block of a SHA-224 message. -/
def initial224 : State :=
  ⟨0xc1059ed8, 0x367cd507, 0x3070dd17, 0xf70e5939,
    0xffc00b31, 0x68581511, 0x64f98fa7, 0xbefa4fa4⟩

/-- The lower mixing of the schedule. -/
def spread0 (x : UInt32) : UInt32 := rotateRight32 x 7 ^^^ rotateRight32 x 18 ^^^ (x >>> 3)

/-- The upper mixing of the schedule. -/
def spread1 (x : UInt32) : UInt32 :=
  rotateRight32 x 17 ^^^ rotateRight32 x 19 ^^^ (x >>> 10)

/-- The words of the sixty-four steps of a block. -/
def schedule (message : ByteArray) (start : Nat) : Array UInt32 :=
  Nat.fold 48
    (fun i _ w =>
      w.push (spread1 (w.getD (i + 14) 0) + w.getD (i + 9) 0 +
        spread0 (w.getD (i + 1) 0) + w.getD i 0))
    (Array.ofFn fun i : Fin 16 => word32Big message (start + 4 * i.val))

/-- One step of a block with its constant and its word. -/
@[inline] def step (k w : UInt32) (s : State) : State :=
  let s1 := rotateRight32 s.e 6 ^^^ rotateRight32 s.e 11 ^^^ rotateRight32 s.e 25
  let t1 := s.h + s1 + ((s.e &&& s.f) ^^^ (~~~s.e &&& s.g)) + k + w
  let s0 := rotateRight32 s.a 2 ^^^ rotateRight32 s.a 13 ^^^ rotateRight32 s.a 22
  let t2 := s0 + ((s.a &&& s.b) ^^^ (s.a &&& s.c) ^^^ (s.b &&& s.c))
  ⟨t1 + t2, s.a, s.b, s.c, s.d + t1, s.e, s.f, s.g⟩

/-- The state behind one more block. -/
def compress (message : ByteArray) (s : State) (start : Nat) : State :=
  let w := schedule message start
  let t := Nat.fold 64 (fun i h t => step (constants.get ⟨i, h⟩) (w.getD i 0) t) s
  ⟨s.a + t.a, s.b + t.b, s.c + t.c, s.d + t.d, s.e + t.e, s.f + t.f, s.g + t.g, s.h + t.h⟩

/-- The state behind the end of a message; `before` bytes were read before. -/
def finish (before : Nat) (s : State) (message : ByteArray) : State :=
  let padded := pad .big 64 8 before message
  foldBlocks 64 padded (compress padded) s

/-- The words of a state. -/
def State.words (s : State) : Vector UInt32 8 :=
  #v[s.a, s.b, s.c, s.d, s.e, s.f, s.g, s.h]

/-- The SHA-256 digest of a message. -/
def digest (message : List UInt8) : Vector UInt8 32 :=
  bytes32Big (finish 0 initial message.toByteArray).words 32

/-- The SHA-224 digest of a message. -/
def digest224 (message : List UInt8) : Vector UInt8 28 :=
  bytes32Big (finish 0 initial224 message.toByteArray).words 28

end RealmDirectory.Digest.Sha256
