import Mathlib.Data.List.Infix
import RealmDirectory.Proofs.Query.Pattern

/-!
# Values under wildcards

The rule of `LIKE` is stated here as a relation between a pattern and a text, one case for
each thing that can stand at the start of a pattern: a run of any characters, one character,
a character behind the escape character, a letter, and, where a database has them, a class of
characters in brackets. The pattern that a search binds for a value is then held to that rule,
under both readings of a bracket: it meets the texts that contain the upper-cased value, since
every character of the value that could mean something else stands behind an escape.

## Main definitions

* `Matches`: a text meets a pattern, by the rule of `LIKE` with the escape character `!`.
* `escaped`: what stands behind each escape character of a pattern.

## Main results

* `likes_iff_matches`: the matcher that runs finds exactly what the rule allows.
* `matches_escapeLike_append`: an escaped value is met by its own letters, whatever a bracket
  means.
* `matches_likePattern_iff_infix`: the pattern of a value is met by the texts that contain the
  upper-cased value, and each of its escapes is followed by a character with a meaning.
-/

namespace RealmDirectory

namespace Sql.Pattern

/-! ### The rule -/

/-- How a database reads a bracket that is not escaped. -/
inductive Bracket where
  /-- The bracket stands for itself. -/
  | letter
  /-- The bracket opens a class of characters. -/
  | opensClass
  deriving DecidableEq, Repr

/-- A class of characters: those of some ranges, or all but those. -/
structure CharClass where
  /-- Whether the class has the characters outside its ranges. -/
  negated : Bool
  /-- The first and the last character of each range. -/
  ranges : List (Char × Char)
  deriving DecidableEq, Repr

/-- Whether a class has a character. -/
def CharClass.has (k : CharClass) (c : Char) : Bool :=
  (k.ranges.any fun r => r.1 ≤ c && c ≤ r.2) != k.negated

/-- The ranges of a class up to its closing bracket, and the pattern behind the bracket. The
escape character makes the next one literal, and a hyphen at either end of the class stands
for itself. There are none when the class is not closed. -/
def readRanges? : List Char → Option (List (Char × Char) × List Char)
  | [] => none
  | ']' :: r => some ([], r)
  | '!' :: c :: r => (readRanges? r).map fun k => ((c, c) :: k.1, k.2)
  | c :: '-' :: ']' :: r => some ([(c, c), ('-', '-')], r)
  | c :: '-' :: '!' :: d :: r => (readRanges? r).map fun k => ((c, d) :: k.1, k.2)
  | c :: '-' :: d :: r => (readRanges? r).map fun k => ((c, d) :: k.1, k.2)
  | c :: r => (readRanges? r).map fun k => ((c, c) :: k.1, k.2)

/-- The class behind an opening bracket, and the pattern behind the class. -/
def readClass? : List Char → Option (CharClass × List Char)
  | '^' :: r => (readRanges? r).map fun k => (⟨true, k.1⟩, k.2)
  | r => (readRanges? r).map fun k => (⟨false, k.1⟩, k.2)

/-- A text meets a pattern. The pattern is taken from its start: `%` passes over a run of any
characters and `_` over one, `!` makes the next character literal, and a bracket is a letter
or opens a class. -/
inductive Matches (b : Bracket) : List Char → List Char → Prop
  | nil : Matches b [] []
  | run {p s : List Char} (t : List Char) : Matches b p s → Matches b ('%' :: p) (t ++ s)
  | one {p s : List Char} (c : Char) : Matches b p s → Matches b ('_' :: p) (c :: s)
  | literal {p s : List Char} (c : Char) :
      Matches b p s → Matches b (likeEscape :: c :: p) (c :: s)
  | letter {p s : List Char} {c : Char} : c ≠ '%' → c ≠ '_' → c ≠ likeEscape →
      (c = '[' → b = .letter) → Matches b p s → Matches b (c :: p) (c :: s)
  | oneOf {p q s : List Char} {k : CharClass} {c : Char} : b = .opensClass →
      readClass? p = some (k, q) → k.has c = true → Matches b q s → Matches b ('[' :: p) (c :: s)

/-! ### What stands at the start of a pattern -/

section

variable {b : Bracket} {p s : List Char} {c : Char}

theorem matches_nil_iff : Matches b [] s ↔ s = [] := by
  constructor
  · intro h
    cases h
    rfl
  · rintro rfl
    exact .nil

theorem matches_run_iff : Matches b ('%' :: p) s ↔ ∃ t r, s = t ++ r ∧ Matches b p r := by
  constructor
  · intro h
    cases h with
    | run t h => exact ⟨t, _, rfl, h⟩
    | letter hrun => exact absurd rfl hrun
  · rintro ⟨t, r, rfl, h⟩
    exact .run t h

theorem matches_one_iff : Matches b ('_' :: p) s ↔ ∃ d r, s = d :: r ∧ Matches b p r := by
  constructor
  · intro h
    cases h with
    | one d h => exact ⟨d, _, rfl, h⟩
    | letter _ hone => exact absurd rfl hone
  · rintro ⟨d, r, rfl, h⟩
    exact .one d h

theorem matches_literal_iff :
    Matches b (likeEscape :: c :: p) s ↔ ∃ r, s = c :: r ∧ Matches b p r := by
  constructor
  · intro h
    cases h with
    | literal _ h => exact ⟨_, rfl, h⟩
    | letter _ _ hescape => exact absurd rfl hescape
  · rintro ⟨r, rfl, h⟩
    exact .literal c h

/-- A pattern that ends in its escape character is met by no text. -/
theorem not_matches_dangling : ¬ Matches b [likeEscape] s := by
  intro h
  cases h with
  | letter _ _ hescape => exact absurd rfl hescape

/-- A character without a meaning of its own is met by itself. -/
theorem matches_letter_iff (hrun : c ≠ '%') (hone : c ≠ '_') (hescape : c ≠ likeEscape)
    (hbracket : c = '[' → b = .letter) :
    Matches b (c :: p) s ↔ ∃ r, s = c :: r ∧ Matches b p r := by
  constructor
  · intro h
    cases h with
    | run => exact absurd rfl hrun
    | one => exact absurd rfl hone
    | literal => exact absurd rfl hescape
    | letter _ _ _ _ h => exact ⟨_, rfl, h⟩
    | oneOf hopens => cases (hbracket rfl).symm.trans hopens
  · rintro ⟨r, rfl, h⟩
    exact .letter hrun hone hescape hbracket h

end

/-! ### The matcher that runs -/

section

variable {same : Char → Char → Bool} {escape : Option Char} {p s : List Char} {c : Char}

theorem likes_run_iff (hescape : ¬ some '%' = escape) :
    likes same escape ('%' :: p) s = true ↔
      ∃ t r, s = t ++ r ∧ likes same escape p r = true := by
  unfold likes
  rw [items?_cons_of_ne hescape]
  cases items? escape p with
  | none => simp
  | some items => exact accepts_run

theorem likes_one_iff (hescape : ¬ some '_' = escape) :
    likes same escape ('_' :: p) s = true ↔
      ∃ d r, s = d :: r ∧ likes same escape p r = true := by
  unfold likes
  rw [items?_cons_of_ne hescape]
  cases items? escape p with
  | none => simp
  | some items => cases s <;> simp [item, accepts]

theorem accepts_literal_iff {items : List PatternItem} :
    accepts same (.literal c :: items) s = true ↔
      ∃ d r, s = d :: r ∧ same c d = true ∧ accepts same items r = true := by
  cases s <;> simp [accepts]

theorem likes_literal_iff :
    likes same (some likeEscape) (likeEscape :: c :: p) s = true ↔
      ∃ d r, s = d :: r ∧ same c d = true ∧ likes same (some likeEscape) p r = true := by
  unfold likes
  rw [items?, if_pos rfl]
  cases items? (some likeEscape) p with
  | none => simp
  | some items => exact accepts_literal_iff

theorem likes_letter_iff (hrun : c ≠ '%') (hone : c ≠ '_') (hescape : ¬ some c = escape) :
    likes same escape (c :: p) s = true ↔
      ∃ d r, s = d :: r ∧ same c d = true ∧ likes same escape p r = true := by
  unfold likes
  rw [items?_cons_of_ne hescape, item, if_neg hrun, if_neg hone]
  cases items? escape p with
  | none => simp
  | some items => exact accepts_literal_iff

end

/-- **The matcher finds what the rule allows**, in a database that reads brackets as
letters. -/
theorem likes_iff_matches (p s : List Char) :
    likes (· == ·) (some likeEscape) p s = true ↔ Matches .letter p s := by
  -- The induction follows the reader of patterns, so that an escape is one step.
  induction p using items?.induct (some likeEscape) generalizing s with
  | case1 => rw [matches_nil_iff, likes, items?]; exact List.isEmpty_iff
  | case2 c hescape =>
      obtain rfl : c = likeEscape := Option.some.inj hescape
      simp [likes, items?, not_matches_dangling]
  | case3 c hescape d r ih =>
      obtain rfl : c = likeEscape := Option.some.inj hescape
      rw [matches_literal_iff, likes_literal_iff]
      simp only [ih, beq_iff_eq]
      grind
  | case4 c r hescape ih =>
      have hne : c ≠ likeEscape := fun h => hescape (congrArg some h)
      by_cases hrun : c = '%'
      · subst hrun
        rw [matches_run_iff, likes_run_iff hescape]
        simp only [ih]
      by_cases hone : c = '_'
      · subst hone
        rw [matches_one_iff, likes_one_iff hescape]
        simp only [ih]
      rw [matches_letter_iff hrun hone hne fun _ => rfl, likes_letter_iff hrun hone hescape]
      simp only [ih, beq_iff_eq]
      grind

/-! ### Escaped values -/

/-- **An escaped value is met by its own letters**, whatever a bracket means. -/
theorem matches_escapeLike_append {b : Bracket} {p : List Char} (w s : List Char) :
    Matches b (escapeLike w ++ p) s ↔ ∃ r, s = w ++ r ∧ Matches b p r := by
  induction w generalizing s with
  | nil => simp [escapeLike]
  | cons c w ih =>
      have hstep : Matches b (escapeLike (c :: w) ++ p) s ↔
          ∃ r, s = c :: r ∧ Matches b (escapeLike w ++ p) r := by
        by_cases hmeta : isLikeMeta c = true
        · rw [escapeLike, if_pos hmeta]
          exact matches_literal_iff
        · rw [escapeLike, if_neg hmeta]
          simp only [isLikeMeta, Bool.or_eq_true, beq_iff_eq, not_or] at hmeta
          obtain ⟨⟨⟨hescape, hrun⟩, hone⟩, hbracket⟩ := hmeta
          exact matches_letter_iff hrun hone hescape fun h => absurd h hbracket
      rw [hstep]
      constructor
      · rintro ⟨r, rfl, h⟩
        obtain ⟨t, rfl, ht⟩ := (ih r).mp h
        exact ⟨t, rfl, ht⟩
      · rintro ⟨t, rfl, ht⟩
        exact ⟨w ++ t, rfl, (ih (w ++ t)).mpr ⟨t, rfl, ht⟩⟩

/-- What stands behind each escape character of a pattern, read from the start; nothing
stands behind an escape character at the end. -/
def escaped : List Char → List (Option Char)
  | [] => []
  | c :: r =>
      if c = likeEscape then
        match r with
        | [] => [none]
        | d :: r => some d :: escaped r
      else escaped r

theorem escaped_cons_of_ne {c : Char} (h : c ≠ likeEscape) (r : List Char) :
    escaped (c :: r) = escaped r := by
  rw [escaped.eq_def]
  simp only [if_neg h]

/-- The escapes of an escaped value are for its characters with a meaning. -/
theorem escaped_escapeLike_append (w p : List Char) :
    escaped (escapeLike w ++ p) = (w.filter isLikeMeta).map some ++ escaped p := by
  induction w with
  | nil => rfl
  | cons c w ih =>
      by_cases hmeta : isLikeMeta c = true
      · rw [escapeLike, if_pos hmeta, List.filter_cons_of_pos hmeta, List.cons_append,
          List.cons_append, escaped, if_pos rfl, ih]
        rfl
      · have hne : c ≠ likeEscape := by
          rintro rfl
          exact hmeta (by decide)
        rw [escapeLike, if_neg hmeta, List.filter_cons_of_neg hmeta, List.cons_append,
          escaped_cons_of_ne hne, ih]

end Sql.Pattern

open Sql.Pattern in
/-- **The pattern of a value finds the value and nothing else**, by the rule of `LIKE` under
both readings of a bracket and by the matcher that runs, and each escape in it is followed by
a character that would have a meaning without it. -/
theorem matches_likePattern_iff_infix (value s : String) :
    (∀ b : Bracket, Matches b (likePattern value).toList s.toList ↔
        Text.upperCase value.toList <:+: s.toList) ∧
      (likes (· == ·) (some likeEscape) (likePattern value).toList s.toList = true ↔
        Text.upperCase value.toList <:+: s.toList) ∧
      ∀ e ∈ escaped (likePattern value).toList, ∃ c ∈ ['!', '%', '_', '['], e = some c := by
  have hpattern : (likePattern value).toList =
      '%' :: (escapeLike (Text.upperCase value.toList) ++ ['%']) := String.toList_ofList
  have hlast (b : Bracket) (r : List Char) : Matches b ['%'] r :=
    matches_run_iff.mpr ⟨r, [], (List.append_nil r).symm, .nil⟩
  have hmatches (b : Bracket) : Matches b (likePattern value).toList s.toList ↔
      Text.upperCase value.toList <:+: s.toList := by
    rw [hpattern, matches_run_iff]
    simp only [matches_escapeLike_append]
    constructor
    · rintro ⟨t, r, hs, u, rfl, -⟩
      exact ⟨t, u, by rw [hs, List.append_assoc]⟩
    · rintro ⟨t, u, hs⟩
      exact ⟨t, _, by rw [← hs, List.append_assoc], u, rfl, hlast b u⟩
  refine ⟨hmatches, (likes_iff_matches _ _).trans (hmatches .letter), ?_⟩
  intro e he
  have hnone : escaped ['%'] = [] := rfl
  rw [hpattern, escaped_cons_of_ne (by decide), escaped_escapeLike_append, hnone,
    List.append_nil, List.mem_map] at he
  obtain ⟨c, hc, rfl⟩ := he
  have hmeta : isLikeMeta c = true := (List.mem_filter.mp hc).2
  simp only [isLikeMeta, Bool.or_eq_true, beq_iff_eq] at hmeta
  refine ⟨c, ?_, rfl⟩
  simpa [or_assoc] using hmeta

end RealmDirectory
