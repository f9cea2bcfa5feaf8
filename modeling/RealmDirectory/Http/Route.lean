import RealmDirectory.Text.Piece
import RealmDirectory.Url.Percent

/-!
# Routes

A request is for a resource of a realm, which its path names. Paths are compared segment
by segment as they are written. A segment with a name of its own means that resource
before it can mean the identifier of a user, and the identifier of a user is not empty.
Only then the encodings in realms and identifiers are undone.

## Main definitions

* `Resource`: what requests are for.
* `Route.pattern?`: the resource that a path names, with its parts as written.
* `Route.ofPattern?`: the same with the encodings undone.
-/

namespace RealmDirectory

/-- What a request is for, in a realm. -/
inductive Resource where
  /-- The users that a search selects. -/
  | users
  /-- The number of users that a search selects. -/
  | count
  /-- The user with an identifier. -/
  | user (id : String)
  /-- The user with a name. -/
  | byUsername (username : String)
  /-- The user with a mail address. -/
  | byEmail (email : String)
  /-- The check of a password. -/
  | validation
  /-- The passwords. -/
  | credentials
  deriving DecidableEq, Repr

/-- A resource of a realm. -/
structure Route where
  realm : String
  resource : Resource
  deriving DecidableEq, Repr

namespace Route

/-- The text of a segment whose encodings are undone, if it is one. -/
def decode? (segment : List Char) : Option String :=
  (Text.ofUtf8? (Percent.decode (Text.utf8Bytes segment))).map String.ofList

/-- A path that names a resource, with its parts as they are written. -/
inductive Pattern where
  /-- The resource has no part in the path but the realm. -/
  | whole (realm : List Char) (resource : Resource)
  /-- The last segment is a part of the resource. -/
  | part (realm : List Char) (resource : String → Resource) (value : List Char)

/-- The pattern of the segments behind a realm. -/
def patternOf? (realm : List Char) : List (List Char) → Option Pattern
  | [s] =>
      if s = "users".toList then some (.whole realm .users)
      else if s = "credentials".toList then some (.whole realm .credentials)
      else none
  | [s, t] =>
      if s = "credentials".toList ∧ t = "validate".toList then some (.whole realm .validation)
      else if s = "users".toList ∧ t = "count".toList then some (.whole realm .count)
      else if s = "users".toList ∧ t ≠ [] then some (.part realm .user t)
      else none
  | [s, t, u] =>
      if s = "users".toList ∧ u ≠ [] then
        if t = "by-username".toList then some (.part realm .byUsername u)
        else if t = "by-email".toList then some (.part realm .byEmail u)
        else none
      else none
  | _ => none

/-- The pattern of a path. -/
def pattern? (path : List Char) : Option Pattern :=
  match Text.splitOn '/' path with
  | [] :: s :: realm :: rest =>
      if s = "realms".toList then patternOf? realm rest else none
  | _ => none

/-- The route of a pattern; none when a part of it is no text. -/
def ofPattern? : Pattern → Option Route
  | .whole realm resource => (decode? realm).map fun realm => ⟨realm, resource⟩
  | .part realm resource value => do
      let realm ← decode? realm
      let value ← decode? value
      some ⟨realm, resource value⟩

end Route

end RealmDirectory
