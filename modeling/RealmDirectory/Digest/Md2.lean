import RealmDirectory.Digest.Block

/-!
# MD2

A digest of 16 bytes that works on single bytes: a permutation of the byte values, drawn
from the digits of π, stirs a state of 48 bytes once for every block of 16 bytes, and a
checksum of the whole message is read as its last block.
-/

namespace RealmDirectory.Digest.Md2

set_option maxRecDepth 2000 in
/-- The permutation of the byte values. -/
def permutation : Vector UInt8 256 :=
  #v[41, 46, 67, 201, 162, 216, 124, 1, 61, 54, 84, 161, 236, 240, 6, 19, 98, 167, 5, 243,
    192, 199, 115, 140, 152, 147, 43, 217, 188, 76, 130, 202, 30, 155, 87, 60, 253, 212,
    224, 22, 103, 66, 111, 24, 138, 23, 229, 18, 190, 78, 196, 214, 218, 158, 222, 73, 160,
    251, 245, 142, 187, 47, 238, 122, 169, 104, 121, 145, 21, 178, 7, 63, 148, 194, 16, 137,
    11, 34, 95, 33, 128, 127, 93, 154, 90, 144, 50, 39, 53, 62, 204, 231, 191, 247, 151, 3,
    255, 25, 48, 179, 72, 165, 181, 209, 215, 94, 146, 42, 172, 86, 170, 198, 79, 184, 56,
    210, 150, 164, 125, 182, 118, 252, 107, 226, 156, 116, 4, 241, 69, 157, 112, 89, 100,
    113, 135, 32, 134, 91, 207, 101, 230, 45, 168, 2, 27, 96, 37, 173, 174, 176, 185, 246,
    28, 70, 97, 105, 52, 64, 126, 15, 85, 71, 163, 35, 221, 81, 175, 58, 195, 92, 249, 206,
    186, 197, 234, 38, 44, 83, 13, 110, 133, 40, 132, 9, 211, 223, 205, 244, 65, 129, 77,
    82, 106, 220, 55, 200, 108, 193, 171, 250, 36, 225, 123, 8, 12, 189, 177, 74, 120, 136,
    149, 139, 227, 99, 232, 109, 233, 203, 213, 254, 59, 0, 29, 57, 242, 239, 183, 14, 102,
    88, 208, 228, 166, 119, 114, 248, 235, 117, 75, 10, 49, 68, 80, 180, 143, 237, 31, 26,
    219, 153, 141, 51, 159, 17, 131, 20]

/-- The image of a byte. -/
def permute (x : UInt8) : UInt8 := permutation.get x.toFin

/-- The message, filled to whole blocks with bytes that tell how many were added. -/
def pad (message : ByteArray) : ByteArray :=
  let n := 16 - message.size % 16
  Nat.fold n (fun _ _ b => b.push n.toUInt8) message

/-- The checksum behind one more byte at a place of its block, with the last byte that
was written. -/
def checksumByte (message : ByteArray) (start : Nat) (s : Vector UInt8 16 × UInt8)
    (i : Fin 16) : Vector UInt8 16 × UInt8 :=
  let x := s.1.get i ^^^ permute (byteAt message (start + i.val) ^^^ s.2)
  (s.1.set i x, x)

/-- The checksum of a padded message. -/
def checksum (message : ByteArray) : Vector UInt8 16 :=
  (foldBlocks 16 message
    (fun s start => (List.finRange 16).foldl (checksumByte message start) s)
    (Vector.replicate 16 0, 0)).1

/-- One pass over the state; a byte is carried from place to place. -/
def pass (s : Vector UInt8 48 × UInt8) (round : Nat) : Vector UInt8 48 × UInt8 :=
  let (x, t) := (List.finRange 48).foldl
    (fun (s : Vector UInt8 48 × UInt8) j =>
      let t := s.1.get j ^^^ permute s.2
      (s.1.set j t, t)) s
  (x, t + round.toUInt8)

/-- The state behind one more block. -/
def stir (message : ByteArray) (x : Vector UInt8 48) (start : Nat) : Vector UInt8 48 :=
  let loaded : Vector UInt8 48 := Vector.ofFn fun j =>
    if j.val < 16 then x.get j
    else if j.val < 32 then byteAt message (start + (j.val - 16))
    else byteAt message (start + (j.val - 32)) ^^^ x.toArray.getD (j.val - 32) 0
  ((List.range 18).foldl pass (loaded, 0)).1

/-- The MD2 digest of a message. -/
def digest (message : List UInt8) : Vector UInt8 16 :=
  let padded := pad message.toByteArray
  let whole := (checksum padded).toList.foldl ByteArray.push padded
  let x := foldBlocks 16 whole (stir whole) (Vector.replicate 48 0)
  Vector.ofFn fun i => x.toArray.getD i.val 0

end RealmDirectory.Digest.Md2
