import RealmDirectory.Json.Event

/-!
# Credentials in requests

A request brings a user name and a password as a JSON object with the keys `username` and
`password`, or as an array of the two. Other keys are passed over. Of two faults the one
that comes first in the text counts: a text that is no JSON, or a value that does not fit.

## Main definitions

* `Credentials.read`: the credentials of a text.
-/

namespace RealmDirectory

/-- Why a body has no credentials. -/
inductive BodyFault where
  /-- It is no JSON. -/
  | malformed
  /-- It does not have the shape. -/
  | misshapen
  deriving DecidableEq, Repr

/-- A user name and a password. -/
structure Credentials where
  username : String
  password : String
  deriving DecidableEq, Repr

namespace Credentials

/-- Reads a part of a form from the events to come. -/
abbrev Reading := StateT (List JsonEvent) (Except BodyFault)

/-- What an event means where it does not fit: one that cannot be read at all is a fault of
the text. -/
def unfit : JsonEvent → BodyFault
  | .broken | .text none | .key none | .number false => .malformed
  | _ => .misshapen

/-- Reads a text. -/
def readText : Reading String
  | .text (some s) :: r => .ok (s, r)
  | e :: _ => .error (unfit e)
  | [] => .error .malformed

/-- Reads the end of an array. -/
def readEnd : Reading Unit
  | .endArray :: r => .ok ((), r)
  | _ => .error .malformed

/-- Reads past a value, whatever it is. -/
def skip : Reading Unit := fun l =>
  match JsonEvent.skipValue l with
  | some r => .ok ((), r)
  | none => .error .malformed

/-- Reads the key of a member, or the end of an object. -/
def readKey : Reading (Option String)
  | .endObject :: r => .ok (none, r)
  | .key (some name) :: r => .ok (some name, r)
  | _ => .error .malformed

/-- Reads the two texts of an array. -/
def readArray : Reading Credentials := do
  let username ← readText
  let password ← readText
  readEnd
  return ⟨username, password⟩

/-- Reads a member that must not have been read before. -/
def readOnce (before : Option String) : Reading (Option String) :=
  if before.isSome then throw .misshapen else some <$> readText

/-- Reads the members of an object, given the values read so far; `fuel` bounds their
number. -/
def readObject : Nat → Option String → Option String → Reading Credentials
  | 0, _, _ => throw .malformed
  | fuel + 1, username, password => do
      match ← readKey with
      | none =>
          match username, password with
          | some username, some password => return ⟨username, password⟩
          | _, _ => throw .misshapen
      | some name =>
          if name = "username" then readObject fuel (← readOnce username) password
          else if name = "password" then readObject fuel username (← readOnce password)
          else do
            skip
            readObject fuel username password

/-- Reads credentials. -/
def readValue : Reading Credentials
  | .startArray :: r => readArray r
  | .startObject :: r => readObject (r.length + 1) none none r
  | e :: _ => .error (unfit e)
  | [] => .error .malformed

/-- The credentials of a text, behind which nothing else may stand. -/
def read (s : String) : Except BodyFault Credentials :=
  match readValue (JsonEvent.ofText s) with
  | .error f => .error f
  | .ok (c, []) => .ok c
  | .ok (_, _ :: _) => .error .malformed

end Credentials

end RealmDirectory
