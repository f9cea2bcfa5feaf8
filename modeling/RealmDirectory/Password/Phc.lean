import RealmDirectory.Text.Base64
import RealmDirectory.Text.Number
import RealmDirectory.Text.Piece
import RealmDirectory.Text.Utf8

/-!
# PHC strings

The text in which Argon2 hashes are stored: fields that each follow a dollar sign, for
the algorithm, optionally its version and its parameters, the salt, and the hash.

    $argon2id$v=19$m=64,t=3,p=4$c2FsdHNhbHQ$...

Reading checks the shape of every field, and leaves the meaning of the parameters to the
algorithm.

## Main definitions

* `PhcFault`: what can be wrong with a text.
* `PhcString`, `PhcString.parse`: the fields of a text.
* `PhcString.render`: the text of the fields.
-/

namespace RealmDirectory

/-- What is wrong with a value. -/
inductive ValueFault where
  | invalidChar (c : Char)
  | invalidFormat
  | malformed
  | tooLong
  | tooShort
  deriving DecidableEq, Repr

/-- The text of a value's fault. -/
def ValueFault.message : ValueFault → String
  | invalidChar c => "contains invalid character: '" ++ String.singleton c ++ "'"
  | invalidFormat => "value format is invalid"
  | malformed => "value malformed"
  | tooLong => "value to long"
  | tooShort => "value to short"

/-- What is wrong with a PHC string. -/
inductive PhcFault where
  | missingField
  | trailingField
  | invalidName
  | invalidValue (fault : ValueFault)
  | invalidSalt (fault : ValueFault)
  | tooManyParameters
  | hashTooShort
  | base64Encoding
  | base64Length
  | invalidVersion
  deriving DecidableEq, Repr

/-- The text of a fault. -/
def PhcFault.message : PhcFault → String
  | missingField => "password hash string missing field"
  | trailingField => "password hash string contains trailing characters"
  | invalidName => "invalid parameter name"
  | invalidValue fault => "invalid parameter value: " ++ fault.message
  | invalidSalt fault => "salt invalid: " ++ fault.message
  | tooManyParameters => "maximum number of parameters reached"
  | hashTooShort => "output size too short, expected at least 10 bytes"
  | base64Encoding => "invalid Base64 encoding"
  | base64Length => "invalid Base64 length"
  | invalidVersion => "invalid algorithm version"

/-- The fields of a PHC string. -/
structure PhcString where
  /-- The name of the algorithm. -/
  algorithm : List Char
  /-- The version of the algorithm. -/
  version : Option Nat
  /-- The parameters in order, with their names. -/
  parameters : List (List Char × List Char)
  /-- The salt as it is written. -/
  salt : Option (List Char)
  /-- The bytes of the hash. -/
  hash : Option (List UInt8)
  deriving DecidableEq, Repr

namespace PhcString

/-- The number of bytes that a text takes. -/
def byteLength (s : List Char) : Nat := (Text.utf8Bytes s).length

/-- Whether a character may stand in a name. -/
def isNameChar (c : Char) : Bool := c.isLower || c.isDigit || c == '-'

/-- Whether a character may stand in a value or a salt. -/
def isValueChar (c : Char) : Bool :=
  c.isAlphanum || c == '/' || c == '+' || c == '.' || c == '-'

/-- Reads a name of 1 to 32 characters. -/
def readName (s : List Char) : Except PhcFault (List Char) :=
  if s.isEmpty || 32 < byteLength s || !s.all isNameChar then .error .invalidName
  else .ok s

/-- Reads a value of at most 64 characters. -/
def readValue (s : List Char) : Except PhcFault (List Char) :=
  if 64 < byteLength s then .error (.invalidValue .tooLong)
  else
    match s.find? fun c => !isValueChar c with
    | some c => .error (.invalidValue (.invalidChar c))
    | none => .ok s

/-- Reads a value as a decimal number of 32 bits without leading zeros. -/
def readDecimal (s : List Char) : Except PhcFault Nat :=
  match s with
  | [] => .error (.invalidValue .malformed)
  | d :: r =>
      match s.find? fun c => !c.isDigit with
      | some c => .error (.invalidValue (.invalidChar c))
      | none =>
          if d = '0' ∧ r ≠ [] then .error (.invalidValue .invalidFormat)
          else
            match Text.readDigits Text.maxWord32 0 s with
            | some n => .ok n
            | none => .error (.invalidValue .invalidFormat)

/-- Reads a parameter: a name, one equals sign, and a value. -/
def readParameter (s : List Char) : Except PhcFault (List Char × List Char) :=
  match Text.splitOn '=' s with
  | [] => .error .invalidName
  | [name] => do
      let _ ← readName name
      .error (.invalidValue .malformed)
  | name :: value :: rest => do
      let name ← readName name
      let value ← readValue value
      if rest.isEmpty then .ok (name, value) else .error (.invalidValue .malformed)

/-- Reads a list of parameters of at most 127 bytes. -/
def readParameters (s : List Char) : Except PhcFault (List (List Char × List Char)) :=
  if 127 < byteLength s then .error .tooManyParameters
  else (Text.splitOn ',' s).mapM readParameter

/-- Reads a salt of 4 to 64 characters. -/
def readSalt (s : List Char) : Except PhcFault (List Char) :=
  if byteLength s < 4 then .error (.invalidSalt .tooShort)
  else if 64 < byteLength s then .error (.invalidSalt .tooLong)
  else
    match s.find? fun c => !isValueChar c with
    | some c => .error (.invalidSalt (.invalidChar c))
    | none => .ok s

/-- Reads letters that stand for at most `bound` bytes. -/
def readBytes (bound : Nat) (s : List Char) : Except PhcFault (List UInt8) :=
  if bound < Text.Alphabet.decodedLength (byteLength s) then .error .base64Length
  else
    match Text.Alphabet.standard.decode? s with
    | some bytes => .ok bytes
    | none => .error .base64Encoding

/-- Reads a hash of 10 to 64 bytes. -/
def readHash (s : List Char) : Except PhcFault (List UInt8) := do
  let bytes ← readBytes 64 s
  if bytes.length < 10 then .error .hashTooShort else .ok bytes

/-- Reads the version at the front of some fields, if the first one gives it. -/
def takeVersion : List (List Char) → Except PhcFault (Option Nat × List (List Char))
  | ('v' :: '=' :: digits) :: rest =>
      if digits.contains ',' then .ok (none, ('v' :: '=' :: digits) :: rest)
      else do
        let value ← readValue digits
        let version ← readDecimal value
        .ok (some version, rest)
  | fields => .ok (none, fields)

/-- Reads the parameters at the front of some fields, if the first one gives them. -/
def takeParameters :
    List (List Char) → Except PhcFault (List (List Char × List Char) × List (List Char))
  | field :: rest =>
      if field.contains '=' then do
        let parameters ← readParameters field
        .ok (parameters, rest)
      else .ok ([], field :: rest)
  | [] => .ok ([], [])

/-- Reads the salt and the hash in the last fields. -/
def takeSaltAndHash :
    List (List Char) → Except PhcFault (Option (List Char) × Option (List UInt8))
  | [] => .ok (none, none)
  | [salt] => do
      let salt ← readSalt salt
      .ok (some salt, none)
  | salt :: hash :: rest => do
      let salt ← readSalt salt
      let hash ← readHash hash
      if rest.isEmpty then .ok (some salt, some hash) else .error .trailingField

/-- Reads a PHC string. -/
def parse (text : String) : Except PhcFault PhcString :=
  match Text.splitOn '$' text.toList with
  | [] :: algorithm :: rest => do
      let algorithm ← readName algorithm
      let (version, rest) ← takeVersion rest
      let (parameters, rest) ← takeParameters rest
      let (salt, hash) ← takeSaltAndHash rest
      .ok ⟨algorithm, version, parameters, salt, hash⟩
  | _ => .error .missingField

/-- The text of a parameter. -/
def renderParameter (p : List Char × List Char) : List Char := p.1 ++ '=' :: p.2

/-- The texts of a list, with commas between them. -/
def joinCommas : List (List Char) → List Char
  | [] => []
  | [s] => s
  | s :: r => s ++ ',' :: joinCommas r

/-- The text of a PHC string. -/
def render (p : PhcString) : String :=
  let version := match p.version with
    | some v => '$' :: 'v' :: '=' :: Text.decimal v
    | none => []
  let parameters :=
    if p.parameters.isEmpty then []
    else '$' :: joinCommas (p.parameters.map renderParameter)
  let salt := match p.salt with
    | some s => '$' :: s
    | none => []
  let hash := match p.hash with
    | some bytes => '$' :: Text.Alphabet.standard.encode bytes
    | none => []
  String.ofList ('$' :: (p.algorithm ++ version ++ parameters ++ salt ++ hash))

end PhcString

end RealmDirectory
