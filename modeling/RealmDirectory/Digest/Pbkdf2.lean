import RealmDirectory.Digest.Sha256

/-!
# Keys from passwords

HMAC-SHA-256 digests a message under a key, and PBKDF2 repeats it to make the search for
a password slow: the first round digests the salt, each further round the one before,
and the derived key is the exclusive or of all rounds.
-/

namespace RealmDirectory.Digest

/-- A key of HMAC-SHA-256: the states behind its inner and its outer pad. -/
structure MacKey where
  inner : Sha256.State
  outer : Sha256.State

namespace MacKey

/-- The key's block with every byte mixed with a pad. -/
def padded (key : ByteArray) (x : UInt8) : ByteArray :=
  Nat.fold 64 (fun i _ b => b.push (byteAt key i ^^^ x)) ByteArray.empty

/-- The key of some bytes; more than a block of them is digested first. -/
def ofBytes (key : List UInt8) : MacKey :=
  let short := if 64 < key.length then (Sha256.digest key).toList else key
  let bytes := short.toByteArray
  { inner := Sha256.compress (padded bytes 0x36) Sha256.initial 0
    outer := Sha256.compress (padded bytes 0x5c) Sha256.initial 0 }

/-- The digest of a message under a key. -/
def mac (k : MacKey) (message : ByteArray) : Vector UInt8 32 :=
  let inside := bytes32Big (Sha256.finish 64 k.inner message).words 32
  bytes32Big (Sha256.finish 64 k.outer ⟨inside.toArray⟩).words 32

end MacKey

/-- Mixes a number of further rounds into a key. -/
def deriveRounds (k : MacKey) : Nat → Vector UInt8 32 → Vector UInt8 32 → Vector UInt8 32
  | 0, _, key => key
  | n + 1, last, key =>
      let round := k.mac ⟨last.toArray⟩
      deriveRounds k n round (Vector.zipWith (· ^^^ ·) key round)

/-- The key of 32 bytes that PBKDF2 derives from a password under a salt in a number of
rounds, of which there is at least one. -/
def pbkdf2 (password salt : List UInt8) (rounds : Nat) : Vector UInt8 32 :=
  let k := MacKey.ofBytes password
  let first := k.mac (salt ++ [0, 0, 0, 1]).toByteArray
  deriveRounds k (rounds - 1) first first

end RealmDirectory.Digest
