import RealmDirectory.Url.Fields

/-!
# Locations of databases

The URL of a database names where it lives: behind the scheme stands a path, and behind a
question mark stand options. Databases live in memory, under the path `:memory:` or by an
option, or for the time of a connection under no path at all. Nothing else can be opened
here, since there are no files.
-/

namespace RealmDirectory.Sql.Location

/-- Drops a piece from the start of a text as often as it is there, at most `fuel` times. -/
def dropPieces (piece : List Char) : Nat → List Char → List Char
  | 0, s => s
  | fuel + 1, s =>
      if piece.isPrefixOf s then dropPieces piece fuel (s.drop piece.length) else s

/-- The URL without its scheme. -/
def withoutScheme (url : List Char) : List Char :=
  dropPieces "sqlite:".toList url.length (dropPieces "sqlite://".toList url.length url)

/-- The path of a location and its options. -/
def parts (url : String) : List Char × List (String × String) :=
  let s := withoutScheme url.toList
  match Text.cut '?' s with
  | some (path, options) => (path, UrlFields.ofQuery options)
  | none => (s, [])

/-- The values that an option can have; none for an unknown option. -/
def optionValues? : String → Option (List String)
  | "mode" => some ["ro", "rw", "rwc", "memory"]
  | "cache" => some ["private", "shared"]
  | "immutable" => some ["true", "1", "false", "0"]
  | _ => none

/-- Refuses an option that is unknown or has an unknown value. -/
def checkOption (option : String × String) : Except String Unit :=
  match optionValues? option.1 with
  | none => .error ("unknown query parameter \x60" ++ option.1 ++ "\x60")
  | some values =>
      if values.contains option.2 then .ok ()
      else .error ("unknown value for \x60" ++ option.1 ++ "\x60")

/-- Whether a path and options name a database that lives in memory. -/
def inMemory (path : List Char) (options : List (String × String)) : Bool :=
  path == ":memory:".toList || options.contains ("mode", "memory")

/-- Whether a URL names a database that can be opened, or what is in the way. -/
def opens (url : String) : Except String Unit := do
  let (path, options) := parts url
  options.forM checkOption
  if inMemory path options || path.isEmpty then pure ()
  else throw "unable to open database file"

end RealmDirectory.Sql.Location
