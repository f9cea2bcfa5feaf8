/-!
# Blank characters

A character is blank when Unicode gives it the White_Space property. Trimming removes
blanks from the ends of a text, and a text is blank when nothing is left.

The functions on `List Char` do the work; the functions on `String` read and write
through them.
-/

namespace RealmDirectory.Text

/-- Whether Unicode gives the character the White_Space property. -/
def isBlank (c : Char) : Bool :=
  let n := c.toNat
  (0x09 ≤ n && n ≤ 0x0D) || n == 0x20 || n == 0x85 || n == 0xA0 || n == 0x1680 ||
    (0x2000 ≤ n && n ≤ 0x200A) || n == 0x2028 || n == 0x2029 || n == 0x202F ||
    n == 0x205F || n == 0x3000

/-- Drops the longest run of characters with a property from the end of a text. -/
def dropEndWhile (p : Char → Bool) (s : List Char) : List Char :=
  s.foldr (fun c t => if t.isEmpty && p c then [] else c :: t) []

/-- Drops the blanks at the start of a text. -/
def dropBlanks (s : List Char) : List Char := s.dropWhile isBlank

/-- Drops the blanks at the end of a text. -/
def dropEndBlanks (s : List Char) : List Char := dropEndWhile isBlank s

/-- Drops the blanks at both ends of a text. -/
def strip (s : List Char) : List Char := dropEndBlanks (dropBlanks s)

/-- The text without the blanks at its ends. -/
def trim (s : String) : String := String.ofList (strip s.toList)

/-- Whether a text holds nothing but blanks. -/
def isBlankText (s : String) : Bool := s.toList.all isBlank

/-- Whether two texts agree up to the case of the letters A to Z. -/
def sameLetters (s t : String) : Bool :=
  s.toList.map Char.toLower == t.toList.map Char.toLower

end RealmDirectory.Text
