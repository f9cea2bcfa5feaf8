import RealmDirectory.Config.Environment
import RealmDirectory.Config.Form

/-!
# Loading configurations

The text of a configuration is expanded, read as YAML, and checked. A configuration file
is first looked for and read; what goes wrong then names the file.

## Main definitions

* `ConfigFault`: why a configuration cannot be loaded.
* `DirectoryConfig.ofText`: the configuration of a text.
* `DirectoryConfig.ofFile`: the configuration of a file.
-/

namespace RealmDirectory

/-- Why a configuration cannot be loaded. -/
inductive ConfigFault where
  /-- A variable is neither set nor has a default. -/
  | missingVariable (name : String)
  /-- The text is not a document. -/
  | notYaml (fault : Yaml.Fault)
  /-- The document does not have the fields of a configuration. -/
  | misshapen
  /-- The configuration cannot be used. -/
  | refused (failure : Failure)
  /-- There is no such file. -/
  | fileMissing (path : String)
  /-- The file cannot be read. -/
  | fileUnreadable (path reason : String)
  /-- The file's text cannot be loaded. -/
  | inFile (path : String) (fault : ConfigFault)

/-- The text of a fault. -/
def ConfigFault.message : ConfigFault → String
  | missingVariable name =>
      "Environment variable " ++ name ++ " not found and no default provided"
  | notYaml fault => "Invalid YAML: " ++ fault.message
  | misshapen => "Invalid YAML: the document is not a configuration"
  | refused failure => failure.message
  | fileMissing path => "Configuration file not found: " ++ path
  | fileUnreadable path reason => "Failed to read config file " ++ path ++ ": " ++ reason
  | inFile path fault => "Failed to load config file " ++ path ++ ": " ++ fault.message

namespace DirectoryConfig

/-- The configuration of a text. -/
def ofText (env : Environment) (text : String) : Except ConfigFault DirectoryConfig :=
  match expand env text with
  | .error name => .error (.missingVariable name)
  | .ok expanded =>
      match Yaml.parse expanded with
      | .error fault => .error (.notYaml fault)
      | .ok node =>
          match yamlForm.directory? node with
          | none => .error .misshapen
          | some config =>
              match config.check with
              | .error failure => .error (.refused failure)
              | .ok () => .ok config

end DirectoryConfig

/-- What is found at the path of a file. -/
inductive FileContents where
  | missing
  | unreadable (reason : String)
  | bytes (bytes : List UInt8)

namespace DirectoryConfig

/-- The configuration of a file, which has to be in UTF-8. -/
def ofFile (env : Environment) (path : String) (contents : FileContents) :
    Except ConfigFault DirectoryConfig :=
  match contents with
  | .missing => .error (.fileMissing path)
  | .unreadable reason => .error (.fileUnreadable path reason)
  | .bytes bytes =>
      match Text.ofUtf8? bytes with
      | none => .error (.fileUnreadable path "stream did not contain valid UTF-8")
      | some text => (ofText env (String.ofList text)).mapError (.inFile path)

end DirectoryConfig

end RealmDirectory
