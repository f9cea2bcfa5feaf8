import RealmDirectory.Text.WordTable

/-!
# Word characters

A character belongs to a word when it is alphabetic, a mark, a decimal digit, connecting
punctuation such as the underscore, or a joiner.
-/

namespace RealmDirectory.Text

/-- Whether a character belongs to a word. -/
def isWordChar (c : Char) : Bool :=
  if c.toNat < 128 then c.isAlphanum || c == '_'
  else wordRanges.any fun r => r.1 ≤ c.toNat && c.toNat ≤ r.2

end RealmDirectory.Text
