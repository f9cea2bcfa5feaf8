import RealmDirectory.Digest.Blowfish
import RealmDirectory.Text.Base64
import RealmDirectory.Text.Number
import RealmDirectory.Text.Piece
import RealmDirectory.Text.Utf8

/-!
# Stored bcrypt hashes

A bcrypt hash is stored as a revision, a cost and 53 letters, each behind a dollar sign:
the letters are 22 for the salt and 31 for the hash itself.

    $2b$12$ttttttttttttttttttttttHHHHHHHHHHHHHHHHHHHHHHHHHHHHHHH

The revisions that can be read are all treated alike. The key is the password with a
zero behind it, cut to 72 bytes.

## Main definitions

* `Bcrypt.read`, `Bcrypt.write`: the stored text of a hash.
* `Bcrypt.compute`: the hash of a password.
-/

namespace RealmDirectory.Bcrypt

/-- What is wrong with a stored text. -/
inductive Fault where
  /-- The text is no bcrypt hash. -/
  | malformed
  /-- The cost is not one of 4 to 31. -/
  | costNotAllowed (cost : Nat)
  deriving DecidableEq, Repr

/-- A stored hash. -/
structure Stored where
  /-- The number of doublings of the work. -/
  cost : Nat
  /-- The salt. -/
  salt : Vector UInt8 16
  /-- The hash. -/
  hash : Vector UInt8 23
  deriving DecidableEq

/-- Whether a cost can be used. -/
def allowsCost (cost : Nat) : Bool := 4 ≤ cost && cost ≤ 31

/-- Some bytes as a vector, when there are `n` of them. -/
def exactly? (n : Nat) (bytes : List UInt8) : Option (Vector UInt8 n) :=
  if h : bytes.toArray.size = n then some ⟨bytes.toArray, h⟩ else none

/-- The first `n` bytes of a text and the rest, when a character ends there. -/
def takeBytes? : Nat → List Char → Option (List Char × List Char)
  | 0, s => some ([], s)
  | _ + 1, [] => none
  | n + 1, c :: r =>
      if n + 1 < c.utf8Size then none
      else (takeBytes? (n + 1 - c.utf8Size) r).map fun p => (c :: p.1, p.2)
  termination_by _ s => s.length

/-- The revisions that can be read. -/
def revisions : List (List Char) := [['2', 'y'], ['2', 'b'], ['2', 'a'], ['2', 'x']]

/-- Reads a stored text. Its empty fields do not count. -/
def read (text : String) : Except Fault Stored :=
  match (Text.splitOn '$' text.toList).filter (fun f => !f.isEmpty) with
  | [revision, cost, letters] =>
      if !revisions.contains revision then .error .malformed
      else
        match Text.readBounded Text.maxWord32 cost with
        | none => .error .malformed
        | some cost =>
            if (Text.utf8Bytes letters).length ≠ 53 then .error .malformed
            else
              match takeBytes? 22 letters with
              | none => .error .malformed
              | some (salt, hash) =>
                  match (Text.Alphabet.dotted.decode? salt).bind (exactly? 16) with
                  | none => .error .malformed
                  | some salt =>
                      if !allowsCost cost then .error (.costNotAllowed cost)
                      else
                        match (Text.Alphabet.dotted.decode? hash).bind (exactly? 23) with
                        | none => .error .malformed
                        | some hash => .ok ⟨cost, salt, hash⟩
  | _ => .error .malformed

/-- A number of at least two digits. -/
def twoDigits (n : Nat) : List Char :=
  if n < 10 then '0' :: Text.decimal n else Text.decimal n

/-- The text of a stored hash, under the current revision. -/
def write (s : Stored) : String :=
  String.ofList
    ("$2b$".toList ++ twoDigits s.cost ++ '$' ::
      (Text.Alphabet.dotted.encode s.salt.toList ++
        Text.Alphabet.dotted.encode s.hash.toList))

/-- The key of a password: a zero ends it, and it is cut to 72 bytes. -/
def key (password : String) : List UInt8 := (Digest.utf8 password ++ [0]).take 72

/-- The hash of a password. -/
def compute (cost : Nat) (salt : Vector UInt8 16) (password : String) : Vector UInt8 23 :=
  Digest.Blowfish.passwordDigest cost salt (key password)

end RealmDirectory.Bcrypt
