import RealmDirectory.Config.Realm
import RealmDirectory.Json.Value
import RealmDirectory.Number.Decimal
import RealmDirectory.Yaml.Node

/-!
# Forms of a configuration

A configuration can be written in JSON or in YAML. A form says how the values of one of
the two stand for texts, numbers and records; what a realm is made of is then said once
for both. Unknown fields do not count, and fields that are left out have their usual
values.

The two forms differ. In JSON a list of values stands for a record, field by field, and
text is always quoted. In YAML a record may be left empty, and whatever is written
plainly can be a text.

## Main definitions

* `Form`: how values stand for what a configuration is made of.
* `jsonForm`, `yamlForm`: the two forms.
* `Form.realm?`, `Form.directory?`: the realm or the configuration that a value stands
  for.
-/

namespace RealmDirectory

/-- How values of a format stand for what a configuration is made of. -/
structure Form (ν : Type) where
  /-- The text that a value stands for. -/
  text? : ν → Option String
  /-- The text of a value that may stand for nothing. -/
  optionalText? : ν → Option (Option String)
  /-- The truth value that a value stands for. -/
  flag? : ν → Option Bool
  /-- The whole number up to a bound that a value stands for. -/
  number? : Nat → ν → Option Nat
  /-- The items of a list. -/
  items? : ν → Option (List ν)
  /-- The fields of a record that has fields of certain names. -/
  fields? : List String → ν → Option (List (String × ν))

/-! ### JSON -/

/-- The fields of a record in JSON: the members of an object, or the items of a list that
is not longer than the record. -/
def JsonValue.fields? (names : List String) : JsonValue → Option (List (String × JsonValue))
  | .object members => some members
  | .array items => if names.length < items.length then none else some (names.zip items)
  | _ => none

/-- Configurations in JSON. -/
def jsonForm : Form JsonValue where
  text? := fun
    | .text s => some s
    | _ => none
  optionalText? := fun
    | .null => some none
    | .text s => some (some s)
    | _ => none
  flag? := fun
    | .bool b => some b
    | _ => none
  number? := fun bound v =>
    match v with
    | .whole n => if 0 ≤ n ∧ n.toNat ≤ bound then some n.toNat else none
    | _ => none
  items? := fun
    | .array items => some items
    | _ => none
  fields? := JsonValue.fields?

/-! ### YAML -/

namespace Yaml

/-- The texts that stand for nothing. -/
def nullTexts : List String := ["null", "Null", "NULL", "~"]

/-- The tag of nothing. -/
def nullTag : String := "tag:yaml.org,2002:null"

/-- Whether a text is digits behind a leading zero, which is no number. -/
def isZeroPadded (s : List Char) : Bool :=
  match s with
  | '0' :: _ :: _ => s.all Decimal.isDigit
  | _ => false

/-- The number of digits in a base, up to a bound. -/
def digitsIn? (base bound : Nat) (s : List Char) : Option Nat :=
  if s.isEmpty then none
  else
    s.foldlM (fun n c => do
      let d ← Text.hexValue? c
      if d < base ∧ base * n + d ≤ bound then some (base * n + d) else none) 0

/-- The number of a plain scalar, up to a bound: decimal digits, or digits in the base
that their first two characters give. -/
def number? (bound : Nat) (s : List Char) : Option Nat :=
  let unsigned := match s with
    | '+' :: r => r
    | _ => s
  let inBase := match unsigned with
    | '0' :: 'x' :: r => digitsIn? 16 bound r
    | '0' :: 'o' :: r => digitsIn? 8 bound r
    | '0' :: 'b' :: r => digitsIn? 2 bound r
    | _ => none
  inBase.orElse fun _ =>
    if isZeroPadded unsigned then none else digitsIn? 10 bound unsigned

/-- The text of a scalar that may stand for nothing. A scalar that is tagged as nothing
has to be written so. -/
def optionalText? (plain : Bool) (tag : Option String) (s : String) :
    Option (Option String) :=
  match plain, tag with
  | false, _ => some (some s)
  | true, some t =>
      if t = nullTag then (if nullTexts.contains s then some none else none)
      else some (some s)
  | true, none => some (if s.isEmpty || nullTexts.contains s then none else some s)

/-- Whether a node is left empty. -/
def Node.isLeftEmpty : Node → Bool
  | .scalar true _ s => s.isEmpty
  | _ => false

/-- The name of a field: the text of a scalar. -/
def Node.fieldName? : Node → Option String
  | .scalar _ _ s => some s
  | _ => none

/-- The fields of a record with fields of certain names, none of which may repeat. -/
def Node.fields? (names : List String) (n : Node) : Option (List (String × Node)) :=
  match n with
  | .mapping pairs => do
      let fields ← pairs.mapM fun p => (p.1.fieldName?).map fun name => (name, p.2)
      let known := (fields.map Prod.fst).filter names.contains
      if known.Nodup then some fields else none
  | _ => if n.isLeftEmpty then some [] else none

end Yaml

/-- Configurations in YAML. -/
def yamlForm : Form Yaml.Node where
  text? := fun
    | .scalar _ _ s => some s
    | _ => none
  optionalText? := fun
    | .scalar plain tag s => Yaml.optionalText? plain tag s
    | _ => none
  flag? := fun
    | .scalar true _ s =>
        if ["true", "True", "TRUE"].contains s then some true
        else if ["false", "False", "FALSE"].contains s then some false
        else none
    | _ => none
  number? := fun bound n =>
    match n with
    | .scalar true _ s => Yaml.number? bound s.toList
    | _ => none
  items? := fun n =>
    match n with
    | .sequence items => some items
    | _ => if n.isLeftEmpty then some [] else none
  fields? := Yaml.Node.fields?

/-! ### Records -/

namespace Form

variable {ν : Type}

/-- The value of a field that has to be there. -/
def required {α : Type} (read : ν → Option α) (fields : List (String × ν))
    (name : String) : Option α := do
  read (← fields.lookup name)

/-- The value of a field that may be left out. -/
def optional {α : Type} (read : ν → Option α) (fields : List (String × ν))
    (name : String) (usual : α) : Option α :=
  match fields.lookup name with
  | some v => read v
  | none => some usual

/-- The database that a value stands for. -/
def backend? (f : Form ν) (v : ν) : Option Backend := do
  let fields ← f.fields?
    ["rdbms", "url", "user", "password", "max_connections", "connection_timeout"] v
  let name ← required f.text? fields "rdbms"
  let dialect ← (Dialect.ofName name).toOption
  let url ← required f.text? fields "url"
  let user ← optional f.optionalText? fields "user" none
  let password ← optional f.optionalText? fields "password" none
  let connections ← optional (f.number? Text.maxWord32) fields "max_connections" 10
  let timeout ← optional (f.number? Text.maxWord64) fields "connection_timeout" 30
  some
    { dialect, url, user, password
      maxConnections := connections.toUInt32
      timeout := timeout.toUInt64 }

/-- The statements that a value stands for. -/
def queries? (f : Form ν) (v : ν) : Option QueriesConfig := do
  let fields ← f.fields?
    ["base", "count", "find_by_id", "find_by_username", "find_by_email",
      "columns_mapping", "find_password_hash", "hash_function", "update_password"] v
  let usual : QueriesConfig := {}
  let texts (v : ν) : Option (List String) := do (← f.items? v).mapM f.text?
  some
    { base := ← optional f.text? fields "base" usual.base
      count := ← optional f.text? fields "count" usual.count
      findById := ← optional f.text? fields "find_by_id" usual.findById
      findByUsername := ← optional f.text? fields "find_by_username" usual.findByUsername
      findByEmail := ← optional f.text? fields "find_by_email" usual.findByEmail
      columns := ← optional texts fields "columns_mapping" usual.columns
      findPasswordHash :=
        ← optional f.text? fields "find_password_hash" usual.findPasswordHash
      hashFunction := ← optional f.text? fields "hash_function" usual.hashFunction
      updatePassword := ← optional f.text? fields "update_password" usual.updatePassword }

/-- The realm that a value stands for. -/
def realm? (f : Form ν) (v : ν) : Option RealmConfig := do
  let fields ← f.fields?
    ["id", "name", "database", "queries", "allow_delete", "allow_overwrite"] v
  some
    { id := ← required f.text? fields "id"
      name := ← optional f.optionalText? fields "name" none
      database := ← required f.backend? fields "database"
      queries := ← optional f.queries? fields "queries" {}
      allowDelete := ← optional f.flag? fields "allow_delete" false
      allowOverwrite := ← optional f.flag? fields "allow_overwrite" false }

/-- The server that a value stands for. -/
def server? (f : Form ν) (v : ν) : Option ServerConfig := do
  let fields ← f.fields? ["host", "port"] v
  let usual : ServerConfig := {}
  let port ← optional (f.number? 65535) fields "port" usual.port.toNat
  some { host := ← optional f.text? fields "host" usual.host, port := port.toUInt16 }

/-- The configuration that a value stands for. -/
def directory? (f : Form ν) (v : ν) : Option DirectoryConfig := do
  let fields ← f.fields? ["server", "realms"] v
  let realms (v : ν) : Option (List RealmConfig) := do (← f.items? v).mapM f.realm?
  some
    { server := ← optional f.server? fields "server" {}
      realms := ← required realms fields "realms" }

end Form

end RealmDirectory
