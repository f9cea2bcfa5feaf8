/-!
# UTF-8

Texts as bytes. Reading goes one byte at a time: the reader knows the letter that is
open, and what does not belong to a well-formed sequence is reported in place, one report
for the longest part of a sequence that could have gone on.

## Main definitions

* `utf8Bytes`: the bytes of a text.
* `readUtf8`: the letters of bytes, with `none` for what is malformed.
* `ofUtf8?`, `ofUtf8Lossy`: strict reading, and reading with replacement characters.
-/

namespace RealmDirectory.Text

/-- The bytes of a text. -/
def utf8Bytes (s : List Char) : List UInt8 := s.flatMap String.utf8EncodeChar

/-- A letter of which some bytes are still to come. -/
structure OpenLetter where
  /-- The bits that were read. -/
  bits : Nat
  /-- The least value of the next byte. -/
  low : Nat
  /-- The greatest value of the next byte. -/
  high : Nat
  /-- The number of bytes to come after the next one. -/
  more : Nat
  deriving DecidableEq, Repr

/-- What a byte at the start of a letter means. -/
inductive FirstByte where
  /-- It is a letter of its own. -/
  | letter (c : Char)
  /-- More bytes follow. -/
  | opens (letter : OpenLetter)
  /-- No letter starts with it. -/
  | malformed

/-- What a byte at the start of a letter means. Overlong sequences, surrogates and numbers
beyond the last letter are kept out by the bounds of the second byte. -/
def firstByte (b : Nat) : FirstByte :=
  if b < 0x80 then .letter (Char.ofNat b)
  else if b < 0xC2 then .malformed
  else if b < 0xE0 then .opens ⟨b - 0xC0, 0x80, 0xBF, 0⟩
  else if b < 0xF0 then
    .opens ⟨b - 0xE0, if b = 0xE0 then 0xA0 else 0x80, if b = 0xED then 0x9F else 0xBF, 1⟩
  else if b < 0xF5 then
    .opens ⟨b - 0xF0, if b = 0xF0 then 0x90 else 0x80, if b = 0xF4 then 0x8F else 0xBF, 2⟩
  else .malformed

/-- Reads bytes from a state in which a letter may be open. -/
def readUtf8From : Option OpenLetter → List UInt8 → List (Option Char)
  | none, [] => []
  | some _, [] => [none]
  | none, b :: r => start b.toNat r
  | some o, b :: r =>
      if o.low ≤ b.toNat ∧ b.toNat ≤ o.high then
        let bits := o.bits * 64 + b.toNat % 64
        match o.more with
        | 0 => some (Char.ofNat bits) :: readUtf8From none r
        | more + 1 => readUtf8From (some ⟨bits, 0x80, 0xBF, more⟩) r
      else none :: start b.toNat r
where
  /-- Reads a byte at the start of a letter, and what follows it. -/
  start (b : Nat) (r : List UInt8) : List (Option Char) :=
    match firstByte b with
    | .letter c => some c :: readUtf8From none r
    | .opens o => readUtf8From (some o) r
    | .malformed => none :: readUtf8From none r

/-- The letters of bytes, with `none` for each malformed part. -/
def readUtf8 (bytes : List UInt8) : List (Option Char) := readUtf8From none bytes

/-- The text of bytes without a malformed part. -/
def ofUtf8? (bytes : List UInt8) : Option (List Char) := (readUtf8 bytes).mapM id

/-- The character that stands for what cannot be read. -/
def replacement : Char := '\uFFFD'

/-- The text of bytes, with a replacement character for each malformed part. -/
def ofUtf8Lossy (bytes : List UInt8) : List Char :=
  (readUtf8 bytes).map fun c => c.getD replacement

end RealmDirectory.Text
