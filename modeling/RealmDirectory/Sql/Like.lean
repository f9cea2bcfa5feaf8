/-!
# Patterns

A `LIKE` pattern is read as a list of items before it meets a text: `%` is any run of
characters, `_` is any one character, and everything else stands for itself. With an
escape character, the character behind it stands for itself whatever it is. A pattern
that ends in its escape character matches no text.

## Main definitions

* `Pattern.items?`: the items of a pattern.
* `Pattern.accepts`: whether items match a text.
* `Pattern.likes`: both together, for a pattern and a text.
-/

namespace RealmDirectory.Sql

/-- One item of a pattern. -/
inductive PatternItem where
  /-- Any run of characters, also an empty one. -/
  | run
  /-- Any one character. -/
  | one
  /-- A character that stands for itself. -/
  | literal (c : Char)
  deriving DecidableEq, Repr

namespace Pattern

/-- The item of a character that is not escaped. -/
def item (c : Char) : PatternItem :=
  if c = '%' then .run else if c = '_' then .one else .literal c

/-- The items of a pattern; none when it ends in its escape character. -/
def items? (escape : Option Char) : List Char → Option (List PatternItem)
  | [] => some []
  | c :: r =>
      if some c = escape then
        match r with
        | [] => none
        | d :: r => (items? escape r).map (.literal d :: ·)
      else (items? escape r).map (item c :: ·)

/-- The ends of a text, the whole text first. -/
def ends : List Char → List (List Char)
  | [] => [[]]
  | c :: r => (c :: r) :: ends r

/-- Whether items match a whole text, where `same` tells which characters count as one. -/
def accepts (same : Char → Char → Bool) : List PatternItem → List Char → Bool
  | [], s => s.isEmpty
  | .run :: items, s => (ends s).any (accepts same items)
  | .one :: items, _ :: s => accepts same items s
  | .literal d :: items, c :: s => same d c && accepts same items s
  | _ :: _, [] => false

/-- Whether two characters are one up to the case of the letters A to Z. -/
def sameLetter (c d : Char) : Bool := c.toLower == d.toLower

/-- Whether a text matches a pattern. -/
def likes (same : Char → Char → Bool) (escape : Option Char) (pattern s : List Char) :
    Bool :=
  match items? escape pattern with
  | some items => accepts same items s
  | none => false

end Pattern

end RealmDirectory.Sql
