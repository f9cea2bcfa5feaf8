import RealmDirectory.Digest.Block

/-!
# SHA-1

A digest of 20 bytes from five words. The sixteen words of a block are spread over
eighty steps in four rounds of twenty.
-/

namespace RealmDirectory.Digest.Sha1

/-- The five words of the state. -/
structure State where
  a : UInt32
  b : UInt32
  c : UInt32
  d : UInt32
  e : UInt32

/-- The state before the first block. -/
def initial : State := ⟨0x67452301, 0xefcdab89, 0x98badcfe, 0x10325476, 0xc3d2e1f0⟩

/-- The words of the eighty steps of a block. -/
def schedule (message : ByteArray) (start : Nat) : Array UInt32 :=
  Nat.fold 64
    (fun i _ w =>
      w.push (rotateLeft32
        (w.getD (i + 13) 0 ^^^ w.getD (i + 8) 0 ^^^ w.getD (i + 2) 0 ^^^ w.getD i 0) 1))
    (Array.ofFn fun i : Fin 16 => word32Big message (start + 4 * i.val))

/-- One step of a block. -/
def step (w : Array UInt32) (s : State) (i : Nat) : State :=
  let (f, k) : UInt32 × UInt32 :=
    if i < 20 then ((s.b &&& s.c) ||| (~~~s.b &&& s.d), 0x5a827999)
    else if i < 40 then (s.b ^^^ s.c ^^^ s.d, 0x6ed9eba1)
    else if i < 60 then ((s.b &&& s.c) ||| (s.b &&& s.d) ||| (s.c &&& s.d), 0x8f1bbcdc)
    else (s.b ^^^ s.c ^^^ s.d, 0xca62c1d6)
  ⟨rotateLeft32 s.a 5 + f + s.e + k + w.getD i 0, s.a, rotateLeft32 s.b 30, s.c, s.d⟩

/-- The state behind one more block. -/
def compress (message : ByteArray) (s : State) (start : Nat) : State :=
  let w := schedule message start
  let t := (List.range 80).foldl (step w) s
  ⟨s.a + t.a, s.b + t.b, s.c + t.c, s.d + t.d, s.e + t.e⟩

/-- The SHA-1 digest of a message. -/
def digest (message : List UInt8) : Vector UInt8 20 :=
  let padded := pad .big 64 8 0 message.toByteArray
  let s := foldBlocks 64 padded (compress padded) initial
  bytes32Big #v[s.a, s.b, s.c, s.d, s.e] 20

end RealmDirectory.Digest.Sha1
