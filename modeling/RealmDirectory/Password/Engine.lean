import RealmDirectory.Password.Algorithm
import RealmDirectory.Password.Argon2
import RealmDirectory.Password.Bcrypt
import RealmDirectory.Password.Pbkdf2

/-!
# Hash engines

A hash engine is bound to one algorithm and holds the cost of new hashes. Hashing takes
a salt from its caller, so that it is a function; checking a password reads the cost and
the salt from the stored text.

## Main definitions

* `HashEngine.ofName`, `HashEngine.withBcryptCost`, `HashEngine.withArgon2Settings`,
  `HashEngine.withPbkdf2Rounds`: building an engine.
* `HashEngine.hash`: the stored text for a password.
* `HashEngine.verify`: whether a password belongs to a stored text.
-/

namespace RealmDirectory

/-- The random part of a new hash. -/
abbrev Salt := Vector UInt8 16

/-- An algorithm with the cost of new hashes. -/
structure HashEngine where
  /-- The algorithm. -/
  algorithm : HashAlgorithm
  /-- The cost of new bcrypt hashes. -/
  bcryptCost : Nat := 14
  /-- The cost of new Argon2 hashes. -/
  argon2 : Argon2Settings := ⟨125000, 2, 4⟩
  /-- The rounds of new PBKDF2 hashes. -/
  pbkdf2Rounds : UInt32 := 650000
  deriving DecidableEq, Repr

namespace HashEngine

/-- Refuses a cost of bcrypt that cannot be used. -/
def checkBcryptCost (cost : Nat) : Except Failure Unit :=
  if Bcrypt.allowsCost cost then .ok ()
  else .error (.configuration "bcrypt cost must be between 4 and 31")

/-- Refuses settings of Argon2 that cannot be used. -/
def checkArgon2Settings (settings : Argon2Settings) : Except Failure Unit :=
  match settings.check with
  | .ok () => .ok ()
  | .error fault => .error (.configuration ("Invalid Argon2 parameters: " ++ fault.message))

/-- The engine for the algorithm with a name, at its usual cost. -/
def ofName (name : String) : Except Failure HashEngine := do
  let algorithm ← HashAlgorithm.ofName name
  .ok { algorithm }

/-- The engine with another cost of bcrypt. -/
def withBcryptCost (e : HashEngine) (cost : Nat) : Except Failure HashEngine := do
  checkBcryptCost cost
  .ok { e with bcryptCost := cost }

/-- The engine with other settings of Argon2, which are checked when they are used. -/
def withArgon2Settings (e : HashEngine) (settings : Argon2Settings) : HashEngine :=
  { e with argon2 := settings }

/-- The engine with another number of PBKDF2 rounds. -/
def withPbkdf2Rounds (e : HashEngine) (rounds : UInt32) : Except Failure HashEngine :=
  if rounds = 0 then .error (.configuration "PBKDF2 iteration count must be positive")
  else .ok { e with pbkdf2Rounds := rounds }

/-- Refuses an engine whose algorithm cannot work at its cost. -/
def check (e : HashEngine) : Except Failure Unit :=
  match e.algorithm with
  | .bcrypt => checkBcryptCost e.bcryptCost
  | .argon2 _ => checkArgon2Settings e.argon2
  | _ => .ok ()

/-- The stored text for a password under a salt. -/
def hash (e : HashEngine) (salt : Salt) (password : String) : Except Failure String := do
  e.check
  match e.algorithm with
  | .digest kind => .ok (kind.hexDigest password)
  | .bcrypt =>
      .ok (Bcrypt.write ⟨e.bcryptCost, salt, Bcrypt.compute e.bcryptCost salt password⟩)
  | .argon2 variant =>
      let bytes := Digest.utf8 password
      if Argon2Text.isTooLong bytes then
        .error (.internal
          ("Failed to hash password with " ++ variantName variant ++ ": invalid password"))
      else .ok (Argon2Text.write variant e.argon2 salt bytes)
  | .pbkdf2 =>
      .ok (Pbkdf2.write
        (Pbkdf2.compute e.pbkdf2Rounds.toNat (Pbkdf2.base64 salt.toList) password))

/-- Whether a password belongs to a stored bcrypt hash. -/
def verifyBcrypt (stored password : String) : Except Failure Bool :=
  if stored.isEmpty then .ok false
  else
    match Bcrypt.read stored with
    | .ok s => .ok (Bcrypt.compute s.cost s.salt password == s.hash)
    | .error .malformed => .error (.malformedHash "stored value is not a bcrypt hash")
    | .error (.costNotAllowed cost) =>
        .error (.internal
          ("Failed to verify bcrypt password: Cost needs to be between 4 and 31, got " ++
            String.ofList (Text.decimal cost)))

/-- Whether a password belongs to a stored Argon2 hash of a variant. A hash of another
variant is never accepted. -/
def verifyArgon2 (variant : Digest.Argon2.Variant) (stored password : String) :
    Except Failure Bool :=
  if stored.isEmpty then .ok false
  else
    match PhcString.parse stored with
    | .error fault =>
        .error (.malformedHash
          ("Failed to parse " ++ variantName variant ++ " hash: " ++ fault.message))
    | .ok p =>
        if p.algorithm ≠ Argon2Text.algorithm variant then .ok false
        else
          match Argon2Text.accepts variant p (Digest.utf8 password) with
          | .ok accepted => .ok accepted
          | .error fault =>
              .error (.internal
                ("Failed to verify " ++ variantName variant ++ " password: " ++
                  fault.message))

/-- Whether a password belongs to a stored PBKDF2 hash. -/
def verifyPbkdf2 (stored password : String) : Except Failure Bool :=
  match Pbkdf2.read stored with
  | .ok s => .ok ((Pbkdf2.compute s.rounds s.salt password).key == s.key)
  | .error fault => .error (.malformedHash fault.message)

/-- Whether a password belongs to a stored text. -/
def verify (e : HashEngine) (stored password : String) : Except Failure Bool := do
  e.check
  match e.algorithm with
  | .digest kind => .ok (kind.hexDigest password == stored)
  | .bcrypt => verifyBcrypt stored password
  | .argon2 variant => verifyArgon2 variant stored password
  | .pbkdf2 => verifyPbkdf2 stored password

end HashEngine

end RealmDirectory
