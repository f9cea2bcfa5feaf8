import RealmDirectory.Digest.Argon2
import RealmDirectory.Password.Phc

/-!
# Stored Argon2 hashes

Argon2 hashes are stored as PHC strings, whose parameters give the cost: `m` for the
memory, `t` for the passes, `p` for the lanes, and further a key's name and additional
data. A parameter that is missing has its default, and one that is repeated has its last
value.

## Main definitions

* `Argon2Settings`, `Argon2Settings.check`: the cost of new hashes.
* `Argon2Text.request`: the computation that a stored text asks for.
* `Argon2Text.accepts`: whether a password belongs to a stored text.
-/

namespace RealmDirectory

open Digest.Argon2 (Variant Version Cost)

/-- The cost of new Argon2 hashes. -/
structure Argon2Settings where
  /-- The memory in KiB. -/
  memory : UInt32
  /-- The passes over the memory. -/
  passes : UInt32
  /-- The lanes of the memory. -/
  lanes : UInt32
  deriving DecidableEq, Repr

/-- Why a cost cannot be used. -/
inductive CostFault where
  | memoryTooSmall
  | timeTooSmall
  | tooFewLanes
  | tooManyLanes
  deriving DecidableEq, Repr

/-- The text of a cost's fault. -/
def CostFault.message : CostFault → String
  | memoryTooSmall => "memory cost is too small"
  | timeTooSmall => "time cost is too small"
  | tooFewLanes => "not enough threads"
  | tooManyLanes => "too many threads"

/-- How a cost's fault shows when it comes from a stored text. -/
def CostFault.toValueFault : CostFault → ValueFault
  | tooManyLanes => .tooLong
  | _ => .tooShort

/-- The greatest number of lanes, which is written in 24 bits. -/
def maxLanes : Nat := 0xFFFFFF

/-- Refuses a cost that cannot be used: a lane needs eight blocks of memory, and the number
of lanes is bounded. -/
def checkCost (c : Cost) : Except CostFault Unit :=
  if c.memory < 8 ∨ c.memory < 8 * c.lanes then .error .memoryTooSmall
  else if c.passes = 0 then .error .timeTooSmall
  else if c.lanes = 0 then .error .tooFewLanes
  else if maxLanes < c.lanes then .error .tooManyLanes
  else .ok ()

namespace Argon2Settings

/-- The cost of new hashes as the algorithm takes it. -/
def cost (s : Argon2Settings) : Cost := ⟨s.memory.toNat, s.passes.toNat, s.lanes.toNat⟩

/-- Refuses settings that cannot be used. -/
def check (s : Argon2Settings) : Except CostFault Unit := checkCost s.cost

end Argon2Settings

namespace Argon2Text

/-- The name of a variant in stored texts. -/
def algorithm : Variant → List Char
  | .d => "argon2d".toList
  | .i => "argon2i".toList
  | .id => "argon2id".toList

/-- What the parameters of a stored text ask for. -/
structure Parameters where
  cost : Cost
  extra : List UInt8

/-- The parameters that hold where a stored text gives none. -/
def Parameters.default : Parameters := ⟨⟨19456, 2, 1⟩, []⟩

/-- Reads one parameter. -/
def readParameter (p : Parameters) (entry : List Char × List Char) :
    Except PhcFault Parameters :=
  match entry with
  | (['m'], value) => do
      let n ← PhcString.readDecimal value
      .ok { p with cost := { p.cost with memory := n } }
  | (['t'], value) => do
      let n ← PhcString.readDecimal value
      .ok { p with cost := { p.cost with passes := n } }
  | (['p'], value) => do
      let n ← PhcString.readDecimal value
      .ok { p with cost := { p.cost with lanes := n } }
  | (['k', 'e', 'y', 'i', 'd'], value) => do
      let _ ← PhcString.readBytes 8 value
      .ok p
  | (['d', 'a', 't', 'a'], value) => do
      let bytes ← PhcString.readBytes 32 value
      .ok { p with extra := bytes }
  | _ => .error .invalidName

/-- Reads all parameters, of which the last of a name counts. -/
def readParameters (entries : List (List Char × List Char)) : Except PhcFault Parameters :=
  do
    let p ← entries.foldlM readParameter .default
    match checkCost p.cost with
    | .ok () => .ok p
    | .error fault => .error (.invalidValue fault.toValueFault)

/-- The version with a number; without one it is the current version. -/
def readVersion : Option Nat → Except PhcFault Version
  | none => .ok .v19
  | some n =>
      if n = Version.v16.number then .ok .v16
      else if n = Version.v19.number then .ok .v19
      else .error .invalidVersion

/-- The bytes of a written salt. -/
def readSalt (salt : List Char) : Except PhcFault (List UInt8) := do
  let bytes ← PhcString.readBytes 64 salt
  if bytes.length < 8 then .error (.invalidSalt .tooShort) else .ok bytes

/-- A computation that a stored text asks for. -/
structure Request where
  version : Version
  parameters : Parameters
  salt : List UInt8

/-- Whether a password is too long for the algorithm. -/
def isTooLong (password : List UInt8) : Bool := Text.maxWord32 < password.length

/-- The computation that a stored text asks for. -/
def request (p : PhcString) (salt : List Char) : Except PhcFault Request := do
  let parameters ← readParameters p.parameters
  let version ← readVersion p.version
  let salt ← readSalt salt
  .ok ⟨version, parameters, salt⟩

/-- The hash of `size` bytes that a request leads to. -/
def Request.compute (r : Request) (variant : Variant) (size : Nat)
    (password : List UInt8) : Vector UInt8 size :=
  Digest.Argon2.hash variant r.version r.parameters.cost size password r.salt
    r.parameters.extra

/-- Whether a password belongs to a stored text. Without a salt or a hash it does not. -/
def accepts (variant : Variant) (p : PhcString) (password : List UInt8) :
    Except PhcFault Bool :=
  match p.salt, p.hash with
  | some salt, some hash => do
      let r ← request p salt
      .ok (!isTooLong password && (r.compute variant hash.length password).toList == hash)
  | _, _ => .ok false

/-- The number of bytes in new hashes. -/
def hashSize : Nat := 32

/-- The stored text of a new hash. -/
def write (variant : Variant) (settings : Argon2Settings) (salt : Vector UInt8 16)
    (password : List UInt8) : String :=
  let c := settings.cost
  let hash := Digest.Argon2.hash variant .v19 c hashSize password salt.toList []
  PhcString.render
    { algorithm := algorithm variant
      version := some Version.v19.number
      parameters :=
        [(['m'], Text.decimal c.memory), (['t'], Text.decimal c.passes),
          (['p'], Text.decimal c.lanes)]
      salt := some (Text.Alphabet.standard.encode salt.toList)
      hash := some hash.toList }

end Argon2Text

end RealmDirectory
