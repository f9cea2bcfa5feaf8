import RealmDirectory.Digest.Argon2
import RealmDirectory.Digest.Blowfish
import RealmDirectory.Digest.Md2
import RealmDirectory.Digest.Md5
import RealmDirectory.Digest.Pbkdf2
import RealmDirectory.Digest.Sha1
import RealmDirectory.Digest.Sha256
import RealmDirectory.Digest.Sha3
import RealmDirectory.Digest.Sha512
import RealmDirectory.Failure
import RealmDirectory.Text.Hex
import RealmDirectory.Text.Piece

/-!
# Password hash algorithms

The algorithms under which directories store passwords: plain digests of one message,
bcrypt, the three variants of Argon2, and PBKDF2 with SHA-256. Configurations name them;
any name with the word blowfish in it, in either case of its letters, means bcrypt.

## Main definitions

* `DigestKind`, `DigestKind.digest`: the plain digests.
* `HashAlgorithm`, `HashAlgorithm.ofName`: the algorithms and their names.
-/

namespace RealmDirectory

/-- A plain digest. -/
inductive DigestKind where
  | md2
  | md5
  | sha1
  | sha224
  | sha256
  | sha384
  | sha512
  | sha512Cut224
  | sha512Cut256
  | sha3Of224
  | sha3Of256
  | sha3Of384
  | sha3Of512
  deriving DecidableEq, Repr

namespace DigestKind

/-- Every plain digest. -/
def all : List DigestKind :=
  [md2, md5, sha1, sha224, sha256, sha384, sha512, sha512Cut224, sha512Cut256, sha3Of224,
    sha3Of256, sha3Of384, sha3Of512]

/-- The name of a digest. -/
def name : DigestKind → String
  | md2 => "MD2"
  | md5 => "MD5"
  | sha1 => "SHA-1"
  | sha224 => "SHA-224"
  | sha256 => "SHA-256"
  | sha384 => "SHA-384"
  | sha512 => "SHA-512"
  | sha512Cut224 => "SHA-512/224"
  | sha512Cut256 => "SHA-512/256"
  | sha3Of224 => "SHA3-224"
  | sha3Of256 => "SHA3-256"
  | sha3Of384 => "SHA3-384"
  | sha3Of512 => "SHA3-512"

/-- The number of bytes of a digest. -/
def size : DigestKind → Nat
  | md2 | md5 => 16
  | sha1 => 20
  | sha224 | sha512Cut224 | sha3Of224 => 28
  | sha256 | sha512Cut256 | sha3Of256 => 32
  | sha384 | sha3Of384 => 48
  | sha512 | sha3Of512 => 64

/-- The digest of a message. -/
def digest : (k : DigestKind) → List UInt8 → Vector UInt8 k.size
  | md2 => Digest.Md2.digest
  | md5 => Digest.Md5.digest
  | sha1 => Digest.Sha1.digest
  | sha224 => Digest.Sha256.digest224
  | sha256 => Digest.Sha256.digest
  | sha384 => Digest.Sha512.digest384
  | sha512 => Digest.Sha512.digest
  | sha512Cut224 => Digest.Sha512.digest512Cut224
  | sha512Cut256 => Digest.Sha512.digest512Cut256
  | sha3Of224 => Digest.Sha3.digest 28
  | sha3Of256 => Digest.Sha3.digest 32
  | sha3Of384 => Digest.Sha3.digest 48
  | sha3Of512 => Digest.Sha3.digest 64

/-- The digest of a password, in hexadecimal digits. -/
def hexDigest (k : DigestKind) (password : String) : String :=
  String.ofList (Text.toHex (k.digest (Digest.utf8 password)).toList)

end DigestKind

/-- The name of a variant of Argon2. -/
def variantName : Digest.Argon2.Variant → String
  | .d => "Argon2d"
  | .i => "Argon2i"
  | .id => "Argon2id"

/-- The variants of Argon2. -/
def variants : List Digest.Argon2.Variant := [.d, .i, .id]

/-- An algorithm under which passwords are stored. -/
inductive HashAlgorithm where
  | digest (kind : DigestKind)
  | bcrypt
  | argon2 (variant : Digest.Argon2.Variant)
  | pbkdf2
  deriving DecidableEq, Repr

namespace HashAlgorithm

/-- The name that people read. -/
def name : HashAlgorithm → String
  | digest kind => kind.name
  | bcrypt => "Blowfish (bcrypt)"
  | argon2 variant => variantName variant
  | pbkdf2 => "PBKDF2-SHA256"

/-- The algorithms that are called by their own name. -/
def named : List HashAlgorithm :=
  variants.map argon2 ++ [pbkdf2] ++ DigestKind.all.map digest

/-- Whether a name has the word blowfish. Outside A to Z only the dotted capital I has a
letter of this word in its lower-case form, and a dot behind it, so that no other letter
needs folding. -/
def namesBlowfish (name : String) : Bool :=
  Text.occursIn ['b', 'l', 'o', 'w', 'f', 'i', 's', 'h'] (name.toList.map Char.toLower)

/-- The algorithm that a configuration means by a name. -/
def ofName (n : String) : Except Failure HashAlgorithm :=
  if namesBlowfish n then .ok bcrypt
  else
    match named.find? fun a => a.name == n with
    | some a => .ok a
    | none => .error (.configuration ("Unsupported password hash function: " ++ n))

end HashAlgorithm

end RealmDirectory
