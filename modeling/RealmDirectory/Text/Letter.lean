import RealmDirectory.Text.LetterTable

/-!
# Upper case

The upper-case form of a text, letter by letter, with the full Unicode mapping: a letter
may become several, as the sharp s does, and the mapping looks at no neighbours.
-/

namespace RealmDirectory.Text

/-- The run of a letter, read as its shift. -/
def upperShift? (n : Nat) : List (Nat × Nat × Nat × Int) → Option Int
  | [] => none
  | (first, last, step, shift) :: r =>
      if first ≤ n ∧ n ≤ last ∧ (n - first) % step = 0 then some shift
      else upperShift? n r

/-- The upper-case form of a letter; any other character stands for itself. -/
def upperChar (c : Char) : List Char :=
  if c.toNat < 128 then [c.toUpper]
  else
    match upperExpansions.lookup c.toNat with
    | some letters => letters.map Char.ofNat
    | none =>
        match upperShift? c.toNat upperRuns with
        | some shift => [Char.ofNat (c.toNat + shift).toNat]
        | none => [c]

/-- The upper-case form of a text. -/
def upperCase (s : List Char) : List Char := s.flatMap upperChar

end RealmDirectory.Text
