import RealmDirectory.Digest.Block

/-!
# MD5

A digest of 16 bytes from four words that are mixed with a block of sixteen words in
sixty-four steps.
-/

namespace RealmDirectory.Digest.Md5

/-- The four words of the state. -/
structure State where
  a : UInt32
  b : UInt32
  c : UInt32
  d : UInt32

/-- The constant of each step: the sine of its number, as a fraction of 32 bits. -/
def constants : Vector UInt32 64 :=
  #v[0xd76aa478, 0xe8c7b756, 0x242070db, 0xc1bdceee, 0xf57c0faf, 0x4787c62a, 0xa8304613,
    0xfd469501, 0x698098d8, 0x8b44f7af, 0xffff5bb1, 0x895cd7be, 0x6b901122, 0xfd987193,
    0xa679438e, 0x49b40821, 0xf61e2562, 0xc040b340, 0x265e5a51, 0xe9b6c7aa, 0xd62f105d,
    0x02441453, 0xd8a1e681, 0xe7d3fbc8, 0x21e1cde6, 0xc33707d6, 0xf4d50d87, 0x455a14ed,
    0xa9e3e905, 0xfcefa3f8, 0x676f02d9, 0x8d2a4c8a, 0xfffa3942, 0x8771f681, 0x6d9d6122,
    0xfde5380c, 0xa4beea44, 0x4bdecfa9, 0xf6bb4b60, 0xbebfbc70, 0x289b7ec6, 0xeaa127fa,
    0xd4ef3085, 0x04881d05, 0xd9d4d039, 0xe6db99e5, 0x1fa27cf8, 0xc4ac5665, 0xf4292244,
    0x432aff97, 0xab9423a7, 0xfc93a039, 0x655b59c3, 0x8f0ccc92, 0xffeff47d, 0x85845dd1,
    0x6fa87e4f, 0xfe2ce6e0, 0xa3014314, 0x4e0811a1, 0xf7537e82, 0xbd3af235, 0x2ad7d2bb,
    0xeb86d391]

/-- The rotation of each step. -/
def rotations : Vector UInt32 64 :=
  #v[7, 12, 17, 22, 7, 12, 17, 22, 7, 12, 17, 22, 7, 12, 17, 22, 5, 9, 14, 20, 5, 9, 14, 20,
    5, 9, 14, 20, 5, 9, 14, 20, 4, 11, 16, 23, 4, 11, 16, 23, 4, 11, 16, 23, 4, 11, 16, 23,
    6, 10, 15, 21, 6, 10, 15, 21, 6, 10, 15, 21, 6, 10, 15, 21]

/-- The state before the first block. -/
def initial : State := ⟨0x67452301, 0xefcdab89, 0x98badcfe, 0x10325476⟩

/-- One step of a block. -/
def step (message : ByteArray) (start : Nat) (s : State) (i : Fin 64) : State :=
  let n := i.val
  let (f, g) : UInt32 × Nat :=
    if n < 16 then ((s.b &&& s.c) ||| (~~~s.b &&& s.d), n)
    else if n < 32 then ((s.d &&& s.b) ||| (~~~s.d &&& s.c), (5 * n + 1) % 16)
    else if n < 48 then (s.b ^^^ s.c ^^^ s.d, (3 * n + 5) % 16)
    else (s.c ^^^ (s.b ||| ~~~s.d), (7 * n) % 16)
  let x := f + s.a + constants.get i + word32Little message (start + 4 * g)
  ⟨s.d, s.b + rotateLeft32 x (rotations.get i), s.b, s.c⟩

/-- The state behind one more block. -/
def compress (message : ByteArray) (s : State) (start : Nat) : State :=
  let t := (List.finRange 64).foldl (step message start) s
  ⟨s.a + t.a, s.b + t.b, s.c + t.c, s.d + t.d⟩

/-- The MD5 digest of a message. -/
def digest (message : List UInt8) : Vector UInt8 16 :=
  let padded := pad .little 64 8 0 message.toByteArray
  let s := foldBlocks 64 padded (compress padded) initial
  bytes32Little #v[s.a, s.b, s.c, s.d] 16

end RealmDirectory.Digest.Md5
