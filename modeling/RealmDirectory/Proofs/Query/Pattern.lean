import Mathlib.Data.List.Forall2
import RealmDirectory.Query.Filter
import RealmDirectory.Sql.Like

/-!
# What the pattern of a value finds

The pattern that a search binds for a value was escaped, so that a database reads it as a
run of any characters, the letters of the value, and again a run of any characters. It
therefore finds the value anywhere in a text and finds nothing else, whatever characters
the value is made of.

## Main results

* `Pattern.items?_escapeLike_append`: an escaped value is read as its own letters.
* `Pattern.accepts_literals_append`, `Pattern.accepts_run`: what letters and runs match.
* `likes_likePattern_iff`: a text is like the pattern of a value exactly when it contains
  the upper-cased value.
-/

namespace RealmDirectory

/-- Some part of a text has the letters of `part`, where `same` tells which characters
count as one. -/
def Text.Contains (same : Char → Char → Bool) (part s : List Char) : Prop :=
  ∃ t, t <:+: s ∧ List.Forall₂ (fun d c => same d c = true) part t

namespace Sql.Pattern

/-! ### Reading a pattern -/

/-- A character that escapes nothing is an item of its own. -/
theorem items?_cons_of_ne {escape : Option Char} {c : Char} (h : ¬ some c = escape)
    (r : List Char) : items? escape (c :: r) = (items? escape r).map (item c :: ·) := by
  rw [items?.eq_def]
  simp only [if_neg h]

/-- An escaped value is read as its own letters. -/
theorem items?_escapeLike_append (w rest : List Char) :
    items? (some likeEscape) (escapeLike w ++ rest) =
      (items? (some likeEscape) rest).map (w.map PatternItem.literal ++ ·) := by
  induction w with
  | nil => simp [escapeLike]
  | cons c w ih =>
      by_cases hmeta : isLikeMeta c = true
      · simp only [escapeLike, hmeta, if_true, List.cons_append, items?, ih, Option.map_map,
          Function.comp_def, List.map_cons]
      · have hesc : ¬ some c = some likeEscape := by
          intro h
          rw [Option.some.inj h] at hmeta
          exact hmeta (by decide)
        have hitem : item c = .literal c := by
          simp only [isLikeMeta, Bool.or_eq_true, beq_iff_eq, not_or] at hmeta
          simp [item, hmeta.1.1.2, hmeta.1.2]
        simp only [escapeLike, hmeta, if_false, Bool.false_eq_true, List.cons_append,
          items?_cons_of_ne hesc, hitem, ih, Option.map_map, Function.comp_def, List.map_cons]

/-! ### Meeting a text -/

/-- The ends of a text are its suffixes. -/
theorem mem_ends {s r : List Char} : r ∈ ends s ↔ r <:+ s := by
  induction s with
  | nil => simp [ends]
  | cons c s ih => rw [ends, List.mem_cons, ih, List.suffix_cons_iff]

/-- A run passes over some characters, and the other items meet the rest. -/
theorem accepts_run {same : Char → Char → Bool} {items : List PatternItem} {s : List Char} :
    accepts same (.run :: items) s = true ↔
      ∃ t r, s = t ++ r ∧ accepts same items r = true := by
  simp only [accepts, List.any_eq_true, mem_ends]
  constructor
  · rintro ⟨r, ⟨t, rfl⟩, hr⟩
    exact ⟨t, r, rfl, hr⟩
  · rintro ⟨t, r, rfl, hr⟩
    exact ⟨r, ⟨t, rfl⟩, hr⟩

/-- Letters meet the same letters, and the other items meet the rest. -/
theorem accepts_literals_append {same : Char → Char → Bool} {w : List Char}
    {items : List PatternItem} {s : List Char} :
    accepts same (w.map PatternItem.literal ++ items) s = true ↔
      ∃ t r, s = t ++ r ∧ List.Forall₂ (fun d c => same d c = true) w t ∧
        accepts same items r = true := by
  induction w generalizing s with
  | nil =>
      constructor
      · intro h
        exact ⟨[], s, rfl, List.Forall₂.nil, h⟩
      · rintro ⟨t, r, rfl, ht, hr⟩
        obtain rfl := List.forall₂_nil_left_iff.mp ht
        exact hr
  | cons d w ih =>
      cases s with
      | nil =>
          constructor
          · intro h
            simp [accepts] at h
          · rintro ⟨t, r, heq, ht, -⟩
            obtain ⟨rfl, -⟩ := List.append_eq_nil_iff.mp heq.symm
            cases ht
      | cons c s =>
          simp only [List.map_cons, List.cons_append, accepts, Bool.and_eq_true, ih]
          constructor
          · rintro ⟨hc, t, r, rfl, ht, hr⟩
            exact ⟨c :: t, r, rfl, List.Forall₂.cons hc ht, hr⟩
          · rintro ⟨t, r, heq, ht, hr⟩
            cases ht with
            | cons hc ht =>
                rw [List.cons_append] at heq
                obtain ⟨rfl, rfl⟩ := List.cons.inj heq
                exact ⟨hc, _, r, rfl, ht, hr⟩

/-- A run at the end meets every text. -/
theorem accepts_last_run (same : Char → Char → Bool) (s : List Char) :
    accepts same [.run] s = true :=
  accepts_run.mpr ⟨s, [], (List.append_nil s).symm, rfl⟩

end Sql.Pattern

open Sql.Pattern in
/-- **The pattern of a value finds the value and nothing else.** -/
theorem likes_likePattern_iff (same : Char → Char → Bool) (value : String) (s : List Char) :
    Sql.Pattern.likes same (some likeEscape) (likePattern value).toList s = true ↔
      Text.Contains same (Text.upperCase value.toList) s := by
  have hlast : items? (some likeEscape) ['%'] = some [.run] := by decide
  have hfirst : ¬ some '%' = some likeEscape := by decide
  have hitems : items? (some likeEscape) (likePattern value).toList =
      some (.run :: ((Text.upperCase value.toList).map .literal ++ [.run])) := by
    rw [likePattern, String.toList_ofList, items?_cons_of_ne hfirst, items?_escapeLike_append,
      hlast]
    rfl
  rw [likes, hitems]
  simp only [accepts_run, accepts_literals_append, accepts_last_run, and_true]
  constructor
  · rintro ⟨a, r, rfl, t, b, rfl, ht⟩
    exact ⟨t, ⟨a, b, List.append_assoc a t b⟩, ht⟩
  · rintro ⟨t, ⟨a, b, rfl⟩, ht⟩
    exact ⟨a, t ++ b, List.append_assoc a t b, t, b, rfl, ht⟩

end RealmDirectory
