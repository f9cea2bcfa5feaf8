import RealmDirectory.CommandLine
import RealmDirectory.Config.Load
import RealmDirectory.Http.Message

/-!
# The program

Loads a configuration, starts its realms, and answers the requests that arrive on standard
input. What is not an answer goes to the error output.
-/

namespace RealmDirectory

/-- The variables that a text refers to, as they are set. -/
def readEnvironment (text : String) : IO Environment := do
  let set ← (referredNames text.toList).filterMapM fun name => do
    return (← IO.getEnv name).map fun value => (name, value)
  return KeyedList.ofList set

/-- What is found at a path. -/
def readFile (path : String) : IO FileContents := do
  try
    return .bytes (← IO.FS.readBinFile path).toList
  catch
    | .noFileOrDirectory .. => return .missing
    | e => return .unreadable (toString e)

/-- The configuration that a command line asks for; without a file at the usual path, the
standard one. -/
def loadConfig (o : Options) : IO (Except ConfigFault DirectoryConfig) := do
  let contents ← readFile o.config
  match contents with
  | .missing =>
      if o.config = ({} : Options).config then do
        IO.eprintln "No config.yaml found, using default configuration:"
        IO.eprintln "   - Realm 'default' on an empty in-memory SQLite database"
        return .ok DirectoryConfig.standard
      else return DirectoryConfig.ofFile .empty o.config contents
  | .unreadable _ => return DirectoryConfig.ofFile .empty o.config contents
  | .bytes bytes =>
      let env ← readEnvironment (String.ofList (Text.ofUtf8Lossy bytes))
      return DirectoryConfig.ofFile env o.config contents

/-- Starts a realm; one that fails is tried again by its first request. -/
def startRealm (s : Service) (realm : RealmConfig) : IO Service := do
  let (result, s) := Service.getOrConfigure realm.id s
  match result with
  | .ok _ =>
      IO.eprintln ("  - " ++ realm.displayName ++ " (" ++ realm.database.dialect.description ++
        "): /realms/" ++ realm.id ++ "/users")
  | .error f => IO.eprintln ("  - " ++ realm.displayName ++ ": " ++ f.message)
  return s

/-- A line without its end. -/
def chomp (line : String) : String :=
  String.ofList (Text.dropEndWhile (fun c => c == '\n' || c == '\r') line.toList)

/-- Reads lines up to an empty one. -/
partial def readHead (input : IO.FS.Stream) (lines : List String) : IO (List String) := do
  let line := chomp (← input.getLine)
  if line.isEmpty then return lines.reverse else readHead input (line :: lines)

/-- Reads the given number of bytes, or as many as there are. -/
partial def readBody (input : IO.FS.Stream) (size : Nat) (bytes : List UInt8) :
    IO (List UInt8) := do
  if size = 0 then return bytes
  let part ← input.read size.toUSize
  if part.isEmpty then return bytes
  else readBody input (size - part.size) (bytes ++ part.toList)

/-- A salt that nobody knows before. -/
def freshSalt : IO Salt := do
  let bytes ← IO.getRandomBytes 16
  return Vector.ofFn fun i => bytes.toList.getD i.val 0

/-- Answers requests until the input ends. -/
partial def serve (input output : IO.FS.Stream) (s : Service) : IO Unit := do
  match ← readHead input [] with
  | [] => return ()
  | lines =>
      let (response, s) ← match Head.ofLines? lines with
        | none => pure (Response.bare 400, s)
        | some head => do
            let body ← readBody input head.bodySize []
            pure (Service.respond (← freshSalt) (head.request body) s)
      output.putStr response.message
      output.flush
      serve input output s

/-- Runs the program with options. -/
def runWith (o : Options) : IO UInt32 := do
  match ← loadConfig o with
  | .error fault => do
      IO.eprintln ("Failed to load configuration: " ++ fault.message)
      return 1
  | .ok config => do
      let address := o.address config.server
      IO.eprintln ("User directory for " ++ address.host ++ ":" ++
        Dialect.number address.port.toNat)
      let s ← config.realms.foldlM startRealm (Service.ofRealms config.realms)
      serve (← IO.getStdin) (← IO.getStdout) s
      return 0

end RealmDirectory

/-- Reads the command line and runs the program. -/
def main (arguments : List String) : IO UInt32 :=
  match RealmDirectory.Options.read arguments with
  | .ok o => RealmDirectory.runWith o
  | .error argument => do
      IO.eprintln ("error: unexpected argument '" ++ argument ++ "'")
      return 2
