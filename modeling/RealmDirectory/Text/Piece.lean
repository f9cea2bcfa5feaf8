/-!
# Pieces of a text

Finding, replacing and splitting at a piece of text. All three read from left to right,
and pieces that were found do not overlap.

## Main definitions

* `occursIn`: whether a text has a piece.
* `replace`: puts a new text in place of every piece.
* `splitOn`: the fields between the separators, empty ones included.
-/

namespace RealmDirectory.Text

/-- Whether `piece` occurs somewhere in a text. -/
def occursIn (piece : List Char) : List Char → Bool
  | [] => piece.isEmpty
  | c :: r => piece.isPrefixOf (c :: r) || occursIn piece r

/-- Replaces each non-empty piece `old` by `new`, after passing over `skip` characters
that belong to a piece found before. -/
def replaceFrom (old new : List Char) : Nat → List Char → List Char
  | _, [] => []
  | skip + 1, _ :: r => replaceFrom old new skip r
  | 0, c :: r =>
      if old.isPrefixOf (c :: r) then new ++ replaceFrom old new (old.length - 1) r
      else c :: replaceFrom old new 0 r

/-- Replaces each non-empty piece `old` by `new`, from left to right. -/
def replace (old new text : List Char) : List Char := replaceFrom old new 0 text

/-- The fields of a text between the separators; a text without one is a single field. -/
def splitOn (separator : Char) : List Char → List (List Char)
  | [] => [[]]
  | c :: r =>
      if c = separator then [] :: splitOn separator r
      else
        match splitOn separator r with
        | [] => [[c]]
        | field :: fields => (c :: field) :: fields

/-- The fields of a text between the separators. -/
def fields (separator : Char) (s : String) : List String :=
  (splitOn separator s.toList).map String.ofList

/-- The text before the first separator and the text after it. -/
def cut (separator : Char) : List Char → Option (List Char × List Char)
  | [] => none
  | c :: r =>
      if c = separator then some ([], r)
      else (cut separator r).map fun p => (c :: p.1, p.2)

/-- The texts of a list, joined by a separator. -/
def join (separator : String) (l : List String) : String := String.intercalate separator l

end RealmDirectory.Text
