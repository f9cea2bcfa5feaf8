import RealmDirectory.KeyedList

/-!
# Variables in configurations

The text of a configuration refers to variables of the environment as `$name` in braces,
or with a default behind `:-`. References are expanded in one pass from left to right:
what is put in is not looked at again, and whatever is not a reference stays as it is.

## Main definitions

* `Reference`, `Reference.read?`: a reference at the start of a text.
* `occurrencesFrom`: the references of a text with their places.
* `expand`: the text with its references expanded.
-/

namespace RealmDirectory

/-- The variables that are set, with their values. -/
abbrev Environment := KeyedList String String

/-- A reference to a variable. -/
structure Reference where
  /-- The name of the variable. -/
  name : List Char
  /-- What stands for the variable when it is not set. -/
  default? : Option (List Char)
  deriving DecidableEq, Repr

namespace Reference

/-- Whether a name may begin with a character. -/
def isNameStart (c : Char) : Bool := c.isAlpha || c == '_'

/-- Whether a character may stand in a name. -/
def isNameChar (c : Char) : Bool := c.isAlphanum || c == '_'

/-- Reads what follows the name of a reference, up to the closing brace. -/
def readDefault? : List Char → Option (Option (List Char) × List Char)
  | '\x7d' :: r => some (none, r)
  | ':' :: '-' :: r =>
      match r.dropWhile (· != '\x7d') with
      | _ :: rest => some (some (r.takeWhile (· != '\x7d')), rest)
      | [] => none
  | _ => none

/-- Reads the reference at the start of a text, and what follows it. -/
def read? : List Char → Option (Reference × List Char)
  | '$' :: '\x7b' :: c :: r =>
      if !isNameStart c then none
      else
        (readDefault? (r.dropWhile isNameChar)).map fun p =>
          (⟨c :: r.takeWhile isNameChar, p.1⟩, p.2)
  | _ => none

/-- The text that a reference stands for. -/
def value? (env : Environment) (r : Reference) : Option (List Char) :=
  match env.get? (String.ofList r.name) with
  | some v => some v.toList
  | none => r.default?

end Reference

/-- A reference in a text, with the places where it begins and behind which it ends. -/
structure Occurrence where
  /-- The reference. -/
  reference : Reference
  /-- The number of characters in front of it. -/
  start : Nat
  /-- The number of characters up to its end. -/
  stop : Nat
  deriving DecidableEq, Repr

/-- The references of a text from left to right, none of which begins inside another one. The
text begins at a place, and its first `skip` characters belong to a reference found before. -/
def occurrencesFrom : (skip place : Nat) → List Char → List Occurrence
  | _, _, [] => []
  | skip + 1, place, _ :: r => occurrencesFrom skip (place + 1) r
  | 0, place, c :: r =>
      match Reference.read? (c :: r) with
      | none => occurrencesFrom 0 (place + 1) r
      | some (reference, rest) =>
          let skip := r.length - rest.length
          ⟨reference, place, place + 1 + skip⟩ :: occurrencesFrom skip (place + 1) r

/-- Puts the values of references into a text, from the place behind the last one on. A variable
that is neither set nor has a default is the error. -/
def expandFrom (env : Environment) (text : List Char) (last : Nat) :
    List Occurrence → Except String (List Char)
  | [] => .ok (text.drop last)
  | o :: rest =>
      match o.reference.value? env with
      | none => .error (String.ofList o.reference.name)
      | some v =>
          (expandFrom env text o.stop rest).map fun t =>
            (text.drop last).take (o.start - last) ++ (v ++ t)

/-- The names of the variables that a text refers to. -/
def referredNames : List Char → List String
  | [] => []
  | c :: r =>
      match Reference.read? (c :: r) with
      | some (reference, _) => String.ofList reference.name :: referredNames r
      | none => referredNames r

/-- The text with its references expanded, or the name of the first variable that is
missing. -/
def expand (env : Environment) (text : String) : Except String String :=
  (expandFrom env text.toList 0 (occurrencesFrom 0 0 text.toList)).map String.ofList

end RealmDirectory
