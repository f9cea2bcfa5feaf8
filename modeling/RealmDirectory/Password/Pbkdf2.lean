import RealmDirectory.Digest.Pbkdf2
import RealmDirectory.Text.Base64
import RealmDirectory.Text.Number
import RealmDirectory.Text.Piece

/-!
# Stored PBKDF2 hashes

A PBKDF2 hash is stored in four fields with dollar signs between them: a name, the
number of rounds, the salt, and the key in Base64. The name is not read, and the salt is
used as it stands, as bytes in UTF-8.
-/

namespace RealmDirectory.Pbkdf2

/-- The name in stored texts. -/
def name : String := "PBKDF2-SHA256"

/-- What is wrong with a stored text. -/
inductive Fault where
  /-- The text has another number of fields. -/
  | fieldCount (found : Nat)
  /-- The number of rounds is no number of 32 bits. -/
  | notANumber (field : String)
  /-- There are no rounds. -/
  | noRounds
  deriving DecidableEq, Repr

/-- The text of a fault. -/
def Fault.message : Fault → String
  | fieldCount found =>
      name ++ " value must have 4 '$'-separated fields, found " ++
        String.ofList (Text.decimal found)
  | notANumber field => name ++ " iteration count is not a number: " ++ field
  | noRounds => name ++ " iteration count must be positive"

/-- A stored hash. -/
structure Stored where
  /-- The number of rounds. -/
  rounds : Nat
  /-- The salt. -/
  salt : String
  /-- The key in Base64. -/
  key : String
  deriving DecidableEq, Repr

/-- Reads a stored text. -/
def read (text : String) : Except Fault Stored :=
  match Text.fields '$' text with
  | [_, rounds, salt, key] =>
      match Text.readBounded Text.maxWord32 rounds.toList with
      | none => .error (.notANumber rounds)
      | some 0 => .error .noRounds
      | some n => .ok ⟨n, salt, key⟩
  | fields => .error (.fieldCount fields.length)

/-- The text of a stored hash. -/
def write (s : Stored) : String :=
  name ++ "$" ++ String.ofList (Text.decimal s.rounds) ++ "$" ++ s.salt ++ "$" ++ s.key

/-- Bytes in Base64 with padding. -/
def base64 (bytes : List UInt8) : String :=
  String.ofList (Text.Alphabet.standard.encodePadded bytes)

/-- The key that is derived from a password, in Base64. -/
def deriveKey (password : String) (salt : List UInt8) (rounds : Nat) : String :=
  base64 (Digest.pbkdf2 (Digest.utf8 password) salt rounds).toList

/-- The stored hash of a password under a salt text. -/
def compute (rounds : Nat) (salt password : String) : Stored :=
  ⟨rounds, salt, deriveKey password (Digest.utf8 salt) rounds⟩

end RealmDirectory.Pbkdf2
