import RealmDirectory.KeyedList
import RealmDirectory.Text.Blank

/-!
# Search criteria

A search gives values for keys. Two keys control it: `search` holds a keyword that is
looked for in several attributes, and `exact` asks for equality in place of containment.
Every other key is an attribute with the value it should have.
-/

namespace RealmDirectory

/-- The keys of a search and their values. -/
abbrev Criteria := KeyedList String String

namespace Criteria

/-- The key of the keyword. -/
def searchKey : String := "search"

/-- The key that asks for exact comparison. -/
def exactKey : String := "exact"

/-- The attributes in which a keyword is looked for. -/
def searchable : List String := ["username", "firstName", "lastName", "email"]

/-- Whether a key controls the search and names no attribute. -/
def isControl (key : String) : Bool := key == searchKey || key == exactKey

/-- The keyword, if one is given. -/
def keyword? (c : Criteria) : Option String := c.get? searchKey

/-- Whether values are compared as a whole. -/
def isExact (c : Criteria) : Bool :=
  match c.get? exactKey with
  | some v => Text.sameLetters (Text.trim v) "true"
  | none => false

/-- The attributes that should have a value, with that value. -/
def attributes (c : Criteria) : List (String × String) :=
  c.entries.filter fun e => !isControl e.1

/-- Whether a keyword asks for everyone: a blank one, or a star. -/
def isWildcard (keyword : String) : Bool :=
  let k := Text.strip keyword.toList
  k == [] || k == ['*']

/-- Asks for a keyword. -/
def withKeyword (c : Criteria) (keyword : String) : Criteria := c.insert searchKey keyword

/-- Asks for exact comparison, or for containment. -/
def withExact (c : Criteria) (exact : Bool) : Criteria :=
  c.insert exactKey (if exact then "true" else "false")

/-- Asks for an attribute's value. -/
def withAttribute (c : Criteria) (name value : String) : Criteria := c.insert name value

end Criteria

end RealmDirectory
