import RealmDirectory.Config.Realm

/-!
# Command lines

The program takes the path of a configuration and an address that replaces the configured
one. An option and its value are two arguments, or one with an equals sign between them.

## Main definitions

* `Options`, `Options.read`: what a command line asks for.
* `Options.address`: the address to tell.
-/

namespace RealmDirectory

/-- What a command line asks for. -/
structure Options where
  config : String := "config.yaml"
  port : Option UInt16 := none
  host : Option String := none
  deriving DecidableEq, Repr

namespace Options

/-- The options with the value of one of them; none when it is unknown or misses its
value. -/
def set? (o : Options) (name value : String) : Option Options :=
  if name = "-c" ∨ name = "--config" then some { o with config := value }
  else if name = "--host" then some { o with host := some value }
  else if name = "-p" ∨ name = "--port" then
    (Text.readBounded 65535 value.toList).map fun n => { o with port := some n.toUInt16 }
  else none

/-- An argument cut at its equals sign. -/
def parts (argument : String) : String × Option String :=
  match Text.cut '=' argument.toList with
  | some (name, value) => (String.ofList name, some (String.ofList value))
  | none => (argument, none)

/-- Reads arguments onto options; the first argument that cannot be read is the error. -/
def readOnto (o : Options) : List String → Except String Options
  | [] => .ok o
  | argument :: rest =>
      match parts argument, rest with
      | (name, some value), rest =>
          match o.set? name value with
          | some o => readOnto o rest
          | none => .error argument
      | (name, none), value :: rest =>
          match o.set? name value with
          | some o => readOnto o rest
          | none => .error argument
      | (_, none), [] => .error argument
  termination_by l => l.length

/-- What a command line asks for. -/
def read (arguments : List String) : Except String Options := readOnto {} arguments

/-- The server address of a configuration, replaced by what was asked for. -/
def address (o : Options) (s : ServerConfig) : ServerConfig where
  host := o.host.getD s.host
  port := o.port.getD s.port

end Options

end RealmDirectory
