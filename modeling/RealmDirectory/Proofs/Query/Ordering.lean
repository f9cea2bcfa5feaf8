import Mathlib.Data.List.TakeWhile
import RealmDirectory.Proofs.Query.TopLevel

/-!
# The ordering of a page

A page in SQL Server needs an ordering in front of its clause, and one is added to a statement
that has none. The decision is made on the top level of the statement, where a blank stands for
each nested character. Here the words that are looked for are given a meaning in the statement
itself: the word ORDER and the word BY stand outside literals and parentheses, one behind the
other. A nested part between the two separates them as a blank does.

How long the nested parts are does not count, since any number of blanks may stand between two
words, and neither does what is in them.

## Main definitions

* `IsGap`: a text between two words of the top level.
* `HasOrderBy`: the words ORDER BY stand outside literals and parentheses.

## Main results

* `hasOrderBy_iff`: the search goes over all places at which the words can stand.
* `hasOrderBy_append_separator_iff`: the words in a text in two parts.
* `hasOrderBy_around_blanks`: the number of blanks between two texts does not count.
* `hasOrderBy_topLevel_iff`: the words are found at the top level when they stand outside
  literals and parentheses.
* `addedOrder_around_hidden`: hidden text does not decide whether an ordering is added.
* `paginate_sqlServer_order`: the page of a closed statement, and what does not decide on its
  ordering.
-/

namespace RealmDirectory

namespace Statement

open Position

/-! ### Words -/

theorem dropWord?_append {w x : List Char} (h : x.map Char.toLower = w) (r : List Char) :
    dropWord? w (x ++ r) = some r := by
  induction x generalizing w with
  | nil => subst h; rfl
  | cons c x ih =>
      subst h
      rw [List.map_cons, List.cons_append, dropWord?, if_pos rfl, ih rfl]

theorem exists_of_dropWord? {w s r : List Char} (h : dropWord? w s = some r) :
    ∃ x, s = x ++ r ∧ x.map Char.toLower = w := by
  induction w generalizing s with
  | nil =>
      cases h
      exact ⟨[], rfl, rfl⟩
  | cons a w ih =>
      cases s with
      | nil => cases h
      | cons c s =>
          rw [dropWord?] at h
          split at h
          · next hc =>
              obtain ⟨x, rfl, hx⟩ := ih h
              exact ⟨c :: x, rfl, by rw [List.map_cons, hc, hx]⟩
          · cases h

/-- A word is found in front of a character that is none of its letters, or not at all. -/
theorem dropWord?_append_cons {w : List Char} {d : Char} (h : d.toLower ∉ w) (x y : List Char) :
    dropWord? w (x ++ d :: y) = (dropWord? w x).map (· ++ d :: y) := by
  induction w generalizing x with
  | nil => rfl
  | cons a w ih =>
      obtain ⟨ha, hw⟩ := not_or.mp (mt List.mem_cons.mpr h)
      cases x with
      | nil => exact if_neg ha
      | cons c x =>
          rw [List.cons_append, dropWord?, dropWord?]
          split
          · exact ih hw x
          · rfl

/-! ### The words ORDER BY -/

/-- Whether a text begins with the word BY. -/
def beginsWithBy (s : List Char) : Bool :=
  match dropWord? ['b', 'y'] s with
  | none => false
  | some [] => true
  | some (c :: _) => !Text.isWordChar c

/-- Whether a text goes on with blanks and the word BY. -/
def continuesWithBy (r : List Char) : Bool :=
  match r with
  | [] => false
  | c :: _ => Text.isBlank c && beginsWithBy (Text.dropBlanks r)

theorem startsWithOrderBy_of_some {s r : List Char}
    (h : dropWord? ['o', 'r', 'd', 'e', 'r'] s = some r) :
    startsWithOrderBy s = continuesWithBy r := by
  rw [startsWithOrderBy, h]
  rfl

theorem startsWithOrderBy_of_none {s : List Char}
    (h : dropWord? ['o', 'r', 'd', 'e', 'r'] s = none) : startsWithOrderBy s = false := by
  rw [startsWithOrderBy, h]

/-- A text goes on with blanks and the word BY, behind which no word goes on. -/
theorem continuesWithBy_iff (r : List Char) :
    continuesWithBy r = true ↔ ∃ g b v, r = g ++ (b ++ v) ∧ g ≠ [] ∧
      (∀ c ∈ g, Text.isBlank c = true) ∧ b.map Char.toLower = ['b', 'y'] ∧
      ∀ c ∈ v.head?, Text.isWordChar c = false := by
  constructor
  · intro h
    cases r with
    | nil => cases h
    | cons c r =>
        simp only [continuesWithBy, Bool.and_eq_true] at h
        obtain ⟨hc, hrest⟩ := h
        cases hby : dropWord? ['b', 'y'] (Text.dropBlanks (c :: r)) with
        | none => simp [beginsWithBy, hby] at hrest
        | some v =>
            obtain ⟨b, hb, hword⟩ := exists_of_dropWord? hby
            refine ⟨(c :: r).takeWhile Text.isBlank, b, v, ?_, ?_, ?_, hword, ?_⟩
            · rw [← hb, Text.dropBlanks, List.takeWhile_append_dropWhile]
            · simp [hc]
            · exact fun d hd => List.mem_takeWhile_imp hd
            · cases v with
              | nil => exact fun d hd => by cases hd
              | cons d v =>
                  rintro e ⟨⟩
                  simpa [beginsWithBy, hby] using hrest
  · rintro ⟨g, b, v, rfl, hg, hblank, hb, hv⟩
    obtain ⟨c, g, rfl⟩ := List.exists_cons_of_ne_nil hg
    obtain ⟨d, b, rfl⟩ : ∃ d b', b = d :: b' := by
      cases b with
      | nil => cases hb
      | cons d b => exact ⟨d, b, rfl⟩
    have hd : Text.isBlank d = false := by
      refine Bool.eq_false_iff.mpr fun hd => ?_
      have hlower : d = 'b' := (Text.toLower_of_isBlank hd).symm.trans (List.cons.inj hb).1
      exact absurd (hlower ▸ hd) (by decide)
    have hdrop : Text.dropBlanks (c :: g ++ (d :: b ++ v)) = d :: b ++ v := by
      rw [Text.dropBlanks, List.dropWhile_append_of_pos hblank, List.cons_append,
        List.dropWhile_cons_of_neg (by simp [hd])]
    rw [List.cons_append] at hdrop ⊢
    rw [continuesWithBy, hdrop, hblank c List.mem_cons_self, Bool.true_and, beginsWithBy,
      dropWord?_append hb]
    cases v with
    | nil => rfl
    | cons e v => simp [hv e rfl]

/-- A text begins with the words ORDER BY: both in either case, with blanks between them, and
no word goes on behind them. -/
def BeginsWithOrderBy (s : List Char) : Prop :=
  ∃ o g b v, s = o ++ (g ++ (b ++ v)) ∧ o.map Char.toLower = ['o', 'r', 'd', 'e', 'r'] ∧
    g ≠ [] ∧ (∀ c ∈ g, Text.isBlank c = true) ∧ b.map Char.toLower = ['b', 'y'] ∧
    ∀ c ∈ v.head?, Text.isWordChar c = false

theorem startsWithOrderBy_iff (s : List Char) :
    startsWithOrderBy s = true ↔ BeginsWithOrderBy s := by
  constructor
  · intro h
    cases horder : dropWord? ['o', 'r', 'd', 'e', 'r'] s with
    | none =>
        rw [startsWithOrderBy_of_none horder] at h
        cases h
    | some r =>
        rw [startsWithOrderBy_of_some horder, continuesWithBy_iff] at h
        obtain ⟨o, rfl, ho⟩ := exists_of_dropWord? horder
        obtain ⟨g, b, v, rfl, hrest⟩ := h
        exact ⟨o, g, b, v, rfl, ho, hrest⟩
  · rintro ⟨o, g, b, v, rfl, ho, hrest⟩
    rw [startsWithOrderBy_of_some (dropWord?_append ho _), continuesWithBy_iff]
    exact ⟨g, b, v, rfl, hrest⟩

/-- The words stand in a text when a part behind a place where no word goes on begins with
them. -/
theorem hasOrderByFrom_iff (inWord : Bool) (s : List Char) :
    hasOrderByFrom inWord s = true ↔
      ∃ u r, s = u ++ r ∧ u.foldl (fun _ c => Text.isWordChar c) inWord = false ∧
        startsWithOrderBy r = true := by
  induction s generalizing inWord with
  | nil =>
      constructor
      · intro h
        cases h
      · rintro ⟨u, r, heq, -, hr⟩
        obtain ⟨-, rfl⟩ := List.append_eq_nil_iff.mp heq.symm
        cases hr
  | cons c s ih =>
      rw [hasOrderByFrom, Bool.or_eq_true, Bool.and_eq_true, Bool.not_eq_true', ih]
      constructor
      · rintro (⟨hword, hstart⟩ | ⟨u, r, rfl, hword, hr⟩)
        · exact ⟨[], c :: s, rfl, hword, hstart⟩
        · exact ⟨c :: u, r, rfl, hword, hr⟩
      · rintro ⟨u, r, heq, hword, hr⟩
        cases u with
        | nil => exact .inl ⟨hword, heq ▸ hr⟩
        | cons d u =>
            obtain ⟨rfl, rfl⟩ := List.cons.inj heq
            exact .inr ⟨u, r, rfl, hword, hr⟩

/-- **The words ORDER BY stand in a text** when it begins with them behind a part at the end
of which no word goes on. -/
theorem hasOrderBy_iff (s : List Char) :
    hasOrderBy s = true ↔
      ∃ u r, s = u ++ r ∧ (∀ c ∈ u.getLast?, Text.isWordChar c = false) ∧
        BeginsWithOrderBy r := by
  have hlast (u : List Char) : u.foldl (fun _ c => Text.isWordChar c) false = false ↔
      ∀ c ∈ u.getLast?, Text.isWordChar c = false := by
    cases u using List.reverseRecOn with
    | nil => simp
    | append_singleton u c => simp
  simp only [hasOrderBy, hasOrderByFrom_iff, hlast, startsWithOrderBy_iff]

/-! ### Words around a separator -/

/-- A character that separates words: it belongs to none, and is no letter of ORDER or BY. -/
structure IsSeparator (d : Char) : Prop where
  notWord : Text.isWordChar d = false
  notMem_order : d.toLower ∉ ['o', 'r', 'd', 'e', 'r']
  notMem_by : d.toLower ∉ ['b', 'y']

theorem isSeparator_blank : IsSeparator ' ' := ⟨by decide, by decide, by decide⟩

/-- A text begins with the word ORDER, and nothing but blanks is behind it. -/
def IsOrder (s : List Char) : Prop :=
  ∃ o g, s = o ++ g ∧ o.map Char.toLower = ['o', 'r', 'd', 'e', 'r'] ∧
    ∀ c ∈ g, Text.isBlank c = true

theorem not_isOrder_nil : ¬ IsOrder [] := by
  rintro ⟨o, g, h, ho, -⟩
  obtain ⟨rfl, -⟩ := List.append_eq_nil_iff.mp h.symm
  cases ho

/-- The word ORDER stands at the end of a text, with nothing but blanks behind it. -/
def EndsInOrder (s : List Char) : Prop :=
  ∃ u r, s = u ++ r ∧ (∀ c ∈ u.getLast?, Text.isWordChar c = false) ∧ IsOrder r

section

variable {d : Char}

theorem beginsWithBy_append_separator (hd : IsSeparator d) (x y : List Char) :
    beginsWithBy (x ++ d :: y) = beginsWithBy x := by
  rw [beginsWithBy, beginsWithBy, dropWord?_append_cons hd.notMem_by]
  cases dropWord? ['b', 'y'] x with
  | none => rfl
  | some t =>
      cases t with
      | nil => simp [hd.notWord]
      | cons c t => rfl

/-- Behind blanks, the word BY stands in front of a separator, or behind it when it is a blank
as well. -/
theorem beginsWithBy_dropBlanks_append (hd : IsSeparator d) (x y : List Char) :
    beginsWithBy (Text.dropBlanks (x ++ d :: y)) = true ↔
      beginsWithBy (Text.dropBlanks x) = true ∨
        (∀ c ∈ x, Text.isBlank c = true) ∧ Text.isBlank d = true ∧
          beginsWithBy (Text.dropBlanks y) = true := by
  have hcons (c : Char) (s : List Char) : Text.dropBlanks (c :: s) =
      if Text.isBlank c then Text.dropBlanks s else c :: s := List.dropWhile_cons
  have hnil : beginsWithBy [] = false := rfl
  induction x with
  | nil =>
      have hstart : beginsWithBy (d :: y) = false := beginsWithBy_append_separator hd [] y
      rw [List.nil_append, hcons]
      cases Text.isBlank d with
      | true => simp [Text.dropBlanks, hnil]
      | false => simp [Text.dropBlanks, hnil, hstart]
  | cons c x ih =>
      rw [List.cons_append, hcons, hcons, List.forall_mem_cons]
      cases Text.isBlank c with
      | true => simpa using ih
      | false =>
          have hstart := beginsWithBy_append_separator hd (c :: x) y
          rw [List.cons_append] at hstart
          simp [hstart]

theorem continuesWithBy_append_separator (hd : IsSeparator d) (x y : List Char) :
    continuesWithBy (x ++ d :: y) = true ↔
      continuesWithBy x = true ∨ (∀ c ∈ x, Text.isBlank c = true) ∧ Text.isBlank d = true ∧
        beginsWithBy (Text.dropBlanks y) = true := by
  have hdrop := beginsWithBy_dropBlanks_append hd x y
  cases x with
  | nil =>
      have hnil : beginsWithBy (Text.dropBlanks []) = false := rfl
      rw [List.nil_append] at hdrop ⊢
      simp only [continuesWithBy, Bool.and_eq_true, hdrop, hnil]
      simp
  | cons c x =>
      rw [List.cons_append] at hdrop ⊢
      simp only [continuesWithBy, Bool.and_eq_true, hdrop, List.forall_mem_cons]
      tauto

theorem startsWithOrderBy_append_separator (hd : IsSeparator d) (x y : List Char) :
    startsWithOrderBy (x ++ d :: y) = true ↔
      startsWithOrderBy x = true ∨
        IsOrder x ∧ Text.isBlank d = true ∧ beginsWithBy (Text.dropBlanks y) = true := by
  have hdrop := dropWord?_append_cons hd.notMem_order x y
  cases horder : dropWord? ['o', 'r', 'd', 'e', 'r'] x with
  | none =>
      have hno : ¬ IsOrder x := by
        rintro ⟨o, g, rfl, ho, -⟩
        rw [dropWord?_append ho] at horder
        cases horder
      rw [startsWithOrderBy_of_none (by rw [hdrop, horder]; rfl),
        startsWithOrderBy_of_none horder]
      simp [hno]
  | some t =>
      have hisOrder : IsOrder x ↔ ∀ c ∈ t, Text.isBlank c = true := by
        constructor
        · rintro ⟨o, g, rfl, ho, hg⟩
          rw [dropWord?_append ho, Option.some.injEq] at horder
          exact horder ▸ hg
        · intro ht
          obtain ⟨o, rfl, ho⟩ := exists_of_dropWord? horder
          exact ⟨o, t, rfl, ho, ht⟩
      rw [startsWithOrderBy_of_some (r := t ++ d :: y) (by rw [hdrop, horder]; rfl),
        startsWithOrderBy_of_some horder, hisOrder]
      exact continuesWithBy_append_separator hd t y

/-- **The words ORDER BY in a text around a separator** stand in front of it, behind it, or
around it when it is a blank. -/
theorem hasOrderBy_append_separator_iff (hd : IsSeparator d) (x y : List Char) :
    hasOrderBy (x ++ d :: y) = true ↔
      hasOrderBy x = true ∨
        EndsInOrder x ∧ Text.isBlank d = true ∧ beginsWithBy (Text.dropBlanks y) = true ∨
        hasOrderBy y = true := by
  have hstart := startsWithOrderBy_append_separator hd
  have hlast (u : List Char) : (∀ c ∈ (x ++ d :: u).getLast?, Text.isWordChar c = false) ↔
      ∀ c ∈ u.getLast?, Text.isWordChar c = false := by
    cases u using List.reverseRecOn with
    | nil => simp [hd.notWord]
    | append_singleton u c =>
        have hsplit : x ++ d :: (u ++ [c]) = x ++ d :: u ++ [c] := by simp
        rw [hsplit, List.getLast?_concat, List.getLast?_concat]
  simp only [hasOrderBy_iff, ← startsWithOrderBy_iff]
  constructor
  · rintro ⟨u, r, h, hu, hr⟩
    rcases List.append_eq_append_iff.mp h with ⟨a, rfl, ha⟩ | ⟨b, rfl, rfl⟩
    · cases a with
      | nil =>
          -- No word begins at the separator itself.
          obtain rfl : d :: y = r := ha
          rcases (hstart [] y).mp hr with hnone | ⟨horder, -⟩
          · cases hnone
          · exact absurd horder not_isOrder_nil
      | cons e a =>
          obtain ⟨rfl, rfl⟩ := List.cons.inj ha
          exact .inr (.inr ⟨a, r, rfl, (hlast a).mp hu, hr⟩)
    · rcases (hstart b y).mp hr with hb | ⟨horder, hd, hy⟩
      · exact .inl ⟨u, b, rfl, hu, hb⟩
      · exact .inr (.inl ⟨⟨u, b, rfl, hu, horder⟩, hd, hy⟩)
  · rintro (⟨u, r, rfl, hu, hr⟩ | ⟨⟨u, r, rfl, hu, hr⟩, hblank, hy⟩ | ⟨u, r, rfl, hu, hr⟩)
    · exact ⟨u, r ++ d :: y, List.append_assoc _ _ _, hu, (hstart r y).mpr (.inl hr)⟩
    · exact ⟨u, r ++ d :: y, List.append_assoc _ _ _, hu, (hstart r y).mpr (.inr ⟨hr, hblank, hy⟩)⟩
    · exact ⟨x ++ d :: u, r, by simp, (hlast u).mpr hu, hr⟩

end

/-- Blanks in front of a text bring no words. -/
theorem hasOrderByFrom_replicate (n : Nat) (s : List Char) :
    hasOrderByFrom false (List.replicate n ' ' ++ s) = hasOrderByFrom false s := by
  induction n with
  | zero => rfl
  | succ n ih => exact ih

/-- **The number of blanks between two texts does not count**, as long as there is one. -/
theorem hasOrderBy_around_blanks (u v : List Char) (m n : Nat) :
    hasOrderBy (u ++ (List.replicate (m + 1) ' ' ++ v)) =
      hasOrderBy (u ++ (List.replicate (n + 1) ' ' ++ v)) := by
  have hdrop (k : Nat) : Text.dropBlanks (List.replicate k ' ' ++ v) = Text.dropBlanks v := by
    induction k with
    | zero => rfl
    | succ k ih => exact ih
  have hwords (k : Nat) : hasOrderBy (List.replicate k ' ' ++ v) = hasOrderBy v :=
    hasOrderByFrom_replicate k v
  -- The first blank separates; the others are in front of the text behind it.
  have hfirst (k : Nat) : u ++ (List.replicate (k + 1) ' ' ++ v) =
      u ++ ' ' :: (List.replicate k ' ' ++ v) := rfl
  rw [hfirst, hfirst, Bool.eq_iff_iff, hasOrderBy_append_separator_iff isSeparator_blank,
    hasOrderBy_append_separator_iff isSeparator_blank, hdrop, hdrop, hwords, hwords]

/-! ### The words at the top level -/

/-- A text between two words of the top level: blanks and what is nested. -/
structure IsGap (g : List Char) : Prop where
  nonempty : g ≠ []
  closed : IsClosed g
  blank : ∀ x c y, g = x ++ c :: y → IsClosed x → isNesting c = false → Text.isBlank c = true

/-- **The words ORDER BY stand outside literals and parentheses**: one word behind the other,
in either case, with blanks and what is nested between them, and with no word that goes on in
front of them or behind them. What is nested may be all that stands between the two, as in
`order(1)by`. -/
def HasOrderBy (s : List Char) : Prop :=
  ∃ u o g b v, s = u ++ (o ++ (g ++ (b ++ v))) ∧
    IsClosed u ∧ (∀ c ∈ u.getLast?, Text.isWordChar c = false) ∧
    o.map Char.toLower = ['o', 'r', 'd', 'e', 'r'] ∧ IsGap g ∧
    b.map Char.toLower = ['b', 'y'] ∧ (∀ c ∈ v.head?, Text.isWordChar c = false)

/-- A letter in either case is no blank and does not nest. -/
theorem letter_of_toLower {c : Char} (hblank : Text.isBlank c.toLower = false)
    (hnesting : isNesting c.toLower = false) : c ≠ ' ' ∧ isNesting c = false := by
  constructor
  · rintro rfl
    exact absurd hblank (by decide)
  · refine Bool.eq_false_iff.mpr fun hc => ?_
    obtain rfl | rfl | rfl | rfl := isNesting_iff.mp hc <;> exact absurd hnesting (by decide)

/-- The letters of a word. -/
theorem letters_of_map_toLower {x w : List Char} (h : x.map Char.toLower = w)
    (hw : ∀ c ∈ w, Text.isBlank c = false ∧ isNesting c = false) :
    (∀ c ∈ x, c ≠ ' ') ∧ ∀ c ∈ x, isNesting c = false := by
  have hletter (c : Char) (hc : c ∈ x) : c ≠ ' ' ∧ isNesting c = false := by
    obtain ⟨hblank, hnesting⟩ := hw c.toLower (h ▸ List.mem_map_of_mem hc)
    exact letter_of_toLower hblank hnesting
  exact ⟨fun c hc => (hletter c hc).1, fun c hc => (hletter c hc).2⟩

/-- A character that belongs to a word does not nest. -/
theorem not_isNesting_of_isWordChar {c : Char} (h : Text.isWordChar c = true) :
    isNesting c = false := by
  refine Bool.eq_false_iff.mpr fun hc => ?_
  obtain rfl | rfl | rfl | rfl := isNesting_iff.mp hc <;> exact absurd h (by decide)

/-- What is shown of a text is shown of a character in it. -/
theorem mem_topLevelFrom {p : Position} {s : List Char} {d : Char} :
    d ∈ topLevelFrom p s ↔ ∃ x c y, s = x ++ c :: y ∧ d = shown (p.after x) c := by
  constructor
  · intro h
    obtain ⟨t, u, htu⟩ := List.mem_iff_append.mp h
    obtain ⟨x, r, rfl, -, hr⟩ := exists_of_topLevelFrom_eq_append htu
    cases r with
    | nil => cases hr
    | cons c y => exact ⟨x, c, y, rfl, (List.cons.inj hr).1.symm⟩
  · rintro ⟨x, c, y, rfl, rfl⟩
    rw [topLevelFrom_append, topLevelFrom_cons]
    exact List.mem_append_right _ List.mem_cons_self

/-- **A gap shows blanks, and what shows blanks is a gap.** -/
theorem isGap_iff {g : List Char} :
    IsGap g ↔ g ≠ [] ∧ IsClosed g ∧ ∀ d ∈ topLevel g, Text.isBlank d = true := by
  constructor
  · intro h
    refine ⟨h.nonempty, h.closed, fun d hd => ?_⟩
    obtain ⟨x, c, y, hg, rfl⟩ := mem_topLevelFrom.mp hd
    by_cases hblank : shown (Position.start.after x) c = ' '
    · rw [hblank]
      decide
    · obtain ⟨hshown, hclosed, hplain⟩ := eq_of_shown_ne_blank hblank
      rw [hshown]
      exact h.blank x c y hg hclosed hplain
  · rintro ⟨hne, hclosed, hblank⟩
    refine ⟨hne, hclosed, fun x c y hg hx hplain => ?_⟩
    refine hblank c (mem_topLevelFrom.mpr ⟨x, c, y, hg, ?_⟩)
    rw [show Position.start.after x = .start from hx, shown_start hplain]

/-- A character of a word is shown where nothing is open, and nothing else is shown as one. -/
theorem isWordChar_shown_iff {p : Position} {c : Char} :
    Text.isWordChar (shown p c) = true ↔ p = .start ∧ Text.isWordChar c = true := by
  constructor
  · intro h
    have hne : shown p c ≠ ' ' := by
      intro hblank
      rw [hblank] at h
      exact absurd h (by decide)
    obtain ⟨hshown, hp, -⟩ := eq_of_shown_ne_blank hne
    exact ⟨hp, hshown ▸ h⟩
  · rintro ⟨rfl, hc⟩
    rw [shown_start (not_isNesting_of_isWordChar hc)]
    exact hc

/-- At the start of a text, a word goes on at the top level when it does in the text. -/
theorem isWordChar_head?_topLevel (v : List Char) :
    (∀ c ∈ (topLevel v).head?, Text.isWordChar c = false) ↔
      ∀ c ∈ v.head?, Text.isWordChar c = false := by
  cases v with
  | nil => exact Iff.rfl
  | cons c r =>
      have hshown : Text.isWordChar (shown .start c) = Text.isWordChar c :=
        Bool.eq_iff_iff.mpr (isWordChar_shown_iff.trans (and_iff_right rfl))
      simp [topLevel, topLevelFrom_cons, hshown]

/-- At the end of a closed text, a word goes on at the top level when it does in the text. -/
theorem isWordChar_getLast?_topLevel {u : List Char} (h : IsClosed u) :
    (∀ c ∈ (topLevel u).getLast?, Text.isWordChar c = false) ↔
      ∀ c ∈ u.getLast?, Text.isWordChar c = false := by
  cases u using List.reverseRecOn with
  | nil => exact Iff.rfl
  | append_singleton u c =>
      have hstart (hc : Text.isWordChar c = true) : Position.start.after u = .start :=
        h.of_concat (not_isNesting_of_isWordChar hc)
      have hshown : Text.isWordChar (shown (Position.start.after u) c) = Text.isWordChar c :=
        Bool.eq_iff_iff.mpr (isWordChar_shown_iff.trans (and_iff_right_of_imp hstart))
      have hlast : topLevel (u ++ [c]) = topLevel u ++ [shown (Position.start.after u) c] :=
        topLevelFrom_append .start u [c]
      simp [hlast, hshown]

/-- **The words are found at the top level** when they stand outside literals and
parentheses. -/
theorem hasOrderBy_topLevel_iff (s : List Char) :
    hasOrderBy (topLevel s) = true ↔ HasOrderBy s := by
  have horder : ∀ c ∈ ['o', 'r', 'd', 'e', 'r'],
      Text.isBlank c = false ∧ isNesting c = false := by
    simp [Text.isBlank, isNesting, isQuote]
  have hby : ∀ c ∈ ['b', 'y'], Text.isBlank c = false ∧ isNesting c = false := by
    simp [Text.isBlank, isNesting, isQuote]
  rw [hasOrderBy_iff]
  constructor
  · rintro ⟨u, r, hs, hu, o, g, b, v, rfl, ho, hg, hblank, hb, hv⟩
    -- The text is cut where its top level is, and each part is read off what it shows.
    obtain ⟨u, s₁, rfl, rfl, hs₁⟩ := exists_of_topLevelFrom_eq_append hs
    obtain ⟨o', s₂, rfl, ho', hs₂⟩ := exists_of_topLevelFrom_eq_append hs₁
    obtain ⟨g, s₃, rfl, rfl, hs₃⟩ := exists_of_topLevelFrom_eq_append hs₂
    obtain ⟨b', v, rfl, hb', rfl⟩ := exists_of_topLevelFrom_eq_append hs₃
    have hone : o ≠ [] := by rintro rfl; cases ho
    have hbne : b ≠ [] := by rintro rfl; cases hb
    obtain ⟨rfl, hstart, hoclosed⟩ :=
      eq_of_topLevelFrom_eq ho' hone (letters_of_map_toLower ho horder).1
    rw [hstart, show Position.start.after o' = .start from hoclosed] at hg hblank hb' hv
    obtain ⟨rfl, hgclosed, hbclosed⟩ :=
      eq_of_topLevelFrom_eq hb' hbne (letters_of_map_toLower hb hby).1
    rw [hgclosed, show Position.start.after b' = .start from hbclosed] at hv
    have hgne : g ≠ [] := by rintro rfl; exact hg rfl
    exact ⟨u, o', g, b', v, rfl, hstart, (isWordChar_getLast?_topLevel hstart).mp hu, ho,
      isGap_iff.mpr ⟨hgne, hgclosed, hblank⟩, hb, (isWordChar_head?_topLevel v).mp hv⟩
  · rintro ⟨u, o, g, b, v, rfl, hu, hbefore, ho, hg, hb, hbehind⟩
    obtain ⟨hgne, hgclosed, hblank⟩ := isGap_iff.mp hg
    obtain ⟨hoshown, hoclosed⟩ := topLevel_of_not_isNesting (letters_of_map_toLower ho horder).2
    obtain ⟨hbshown, hbclosed⟩ := topLevel_of_not_isNesting (letters_of_map_toLower hb hby).2
    refine ⟨topLevel u, o ++ (topLevel g ++ (b ++ topLevel v)), ?_,
      (isWordChar_getLast?_topLevel hu).mpr hbefore, o, topLevel g, b, topLevel v, rfl, ho, ?_,
      hblank, hb, (isWordChar_head?_topLevel v).mpr hbehind⟩
    · rw [hu.topLevel_append, hoclosed.topLevel_append, hgclosed.topLevel_append,
        hbclosed.topLevel_append, hoshown, hbshown]
    · exact fun hnil => hgne (List.length_eq_zero_iff.mp
        ((length_topLevelFrom .start g).symm.trans (congrArg List.length hnil)))

instance (s : List Char) : Decidable (HasOrderBy s) :=
  decidable_of_iff _ (hasOrderBy_topLevel_iff s)

/-! ### The ordering that is added -/

/-- The ordering is added when the statement has none at its top level. -/
theorem addedOrder_eq (statement : String) :
    Dialect.sqlServer.addedOrder statement =
      if HasOrderBy statement.toList then "" else " ORDER BY (SELECT NULL)" := by
  rw [Dialect.addedOrder]
  exact if_congr (hasOrderBy_topLevel_iff _) rfl rfl

/-- A closed statement has an ordering once one is added. -/
theorem hasOrderBy_append_order {s : List Char} (h : IsClosed s) :
    HasOrderBy (s ++ " ORDER BY (SELECT NULL)".toList) := by
  have hblank : IsClosed [' '] := by decide
  have hgap : IsGap [' '] :=
    isGap_iff.mpr ⟨by decide, hblank, List.forall_mem_singleton.mpr (by decide)⟩
  refine ⟨s ++ [' '], "ORDER".toList, [' '], "BY".toList, " (SELECT NULL)".toList, ?_,
    h.append hblank, ?_, by decide, hgap, by decide, ?_⟩
  · rw [List.append_assoc]
    rfl
  · simp [Text.isWordChar]
  · simp [Text.isWordChar]

/-- **Hidden text does not decide** whether an ordering is added, when there is some in both
statements. -/
theorem addedOrder_around_hidden {p x y : String}
    (hx : IsHidden (Position.start.after p.toList) x.toList)
    (hy : IsHidden (Position.start.after p.toList) y.toList)
    (hxne : x.toList ≠ []) (hyne : y.toList ≠ []) (s : String) :
    Dialect.sqlServer.addedOrder (p ++ x ++ s) = Dialect.sqlServer.addedOrder (p ++ y ++ s) := by
  obtain ⟨m, hm⟩ := Nat.exists_eq_succ_of_ne_zero (mt List.length_eq_zero_iff.mp hxne)
  obtain ⟨n, hn⟩ := Nat.exists_eq_succ_of_ne_zero (mt List.length_eq_zero_iff.mp hyne)
  have hboth : hasOrderBy (topLevel (p ++ x ++ s).toList) =
      hasOrderBy (topLevel (p ++ y ++ s).toList) := by
    simp only [String.toList_append, List.append_assoc]
    rw [topLevel_around_hidden hx, topLevel_around_hidden hy, hm, hn]
    exact hasOrderBy_around_blanks _ _ m n
  rw [Dialect.addedOrder, Dialect.addedOrder, hboth]

/-- **A page in SQL Server has one ordering.** The page of a closed statement is the statement,
the ordering by nothing when the statement has no ordering outside literals and parentheses,
and the page clause, so that there is an ordering in front of the clause. What is in
parentheses or in a literal, behind a text that leaves no quote open, does not decide.

The top level shows a blank for each nested character, so a group or a literal may stand between
the word ORDER and the word BY in place of a blank: `order(1)by` counts as an ordering, and none
is added to it. -/
theorem paginate_sqlServer_order :
    (∀ (statement : String) (offset limit : Nat), IsClosed statement.toList →
      let order := if HasOrderBy statement.toList then "" else " ORDER BY (SELECT NULL)"
      Dialect.sqlServer.paginate statement offset limit =
          statement ++ order ++ (" OFFSET " ++ Dialect.number offset ++ " ROWS FETCH NEXT " ++
            Dialect.number limit ++ " ROWS ONLY") ∧
        HasOrderBy (statement ++ order).toList) ∧
      (∀ p x y s : String, IsBalanced p.toList → WellNested x.toList → WellNested y.toList →
        Dialect.sqlServer.addedOrder (p ++ ("(" ++ x ++ ")") ++ s) =
          Dialect.sqlServer.addedOrder (p ++ ("(" ++ y ++ ")") ++ s)) ∧
      ∀ (p x y s : String) (q : Char), IsBalanced p.toList → isQuote q = true →
        q ∉ x.toList → q ∉ y.toList →
        Dialect.sqlServer.addedOrder (p ++ (q.toString ++ x ++ q.toString) ++ s) =
          Dialect.sqlServer.addedOrder (p ++ (q.toString ++ y ++ q.toString) ++ s) := by
  have hposition {p : String} (hp : IsBalanced p.toList) :
      Position.start.after p.toList = ⟨none, (Position.start.after p.toList).depth⟩ := by
    rw [← show (Position.start.after p.toList).quote = none from hp]
  refine ⟨fun statement offset limit hclosed => ⟨?_, ?_⟩, ?_, ?_⟩
  · rw [Dialect.paginate, addedOrder_eq]
    rfl
  · by_cases horder : HasOrderBy statement.toList
    · rwa [if_pos horder, String.append_empty]
    · rw [if_neg horder, String.toList_append]
      exact hasOrderBy_append_order hclosed
  · intro p x y s hp hx hy
    have hidden {x : String} (hx : WellNested x.toList) :
        IsHidden (Position.start.after p.toList) ("(" ++ x ++ ")").toList := by
      rw [hposition hp]
      simpa using (hx.isHidden _).group
    exact addedOrder_around_hidden (hidden hx) (hidden hy) (by simp) (by simp) s
  · intro p x y s q hp hq hx hy
    have hidden {x : String} (hx : q ∉ x.toList) :
        IsHidden (Position.start.after p.toList) (q.toString ++ x ++ q.toString).toList := by
      rw [hposition hp]
      simpa using isHidden_literal hq hx (Position.start.after p.toList).depth
    exact addedOrder_around_hidden (hidden hx) (hidden hy) (by simp) (by simp) s

/-- The ordering of a subquery and a literal that says ORDER BY: the page has an ordering added
to it, as it has when something else stands in the parentheses or in the literal. -/
theorem paginate_sqlServer_order_nested :
    let statement := "select * from (select top 10 * from users order by login) u " ++
      "where note = 'order by'"
    IsClosed statement.toList ∧
      Dialect.sqlServer.paginate statement 0 10 =
        statement ++ " ORDER BY (SELECT NULL) OFFSET 0 ROWS FETCH NEXT 10 ROWS ONLY" ∧
      IsBalanced "from (".toList ∧ WellNested "order by ')'".toList ∧ WellNested "".toList ∧
      Dialect.sqlServer.addedOrder ("from (" ++ ("(" ++ "order by ')'" ++ ")") ++ ") u") =
        Dialect.sqlServer.addedOrder ("from (" ++ ("(" ++ "" ++ ")") ++ ") u") ∧
      isQuote '\'' = true ∧ '\'' ∉ " order by (".toList ∧ '\'' ∉ "".toList ∧
      Dialect.sqlServer.addedOrder ("from (" ++ ("'" ++ " order by (" ++ "'") ++ ") u") =
        Dialect.sqlServer.addedOrder ("from (" ++ ("'" ++ "" ++ "'") ++ ") u") := by
  intro statement
  obtain ⟨hpage, hgroup, hliteral⟩ := paginate_sqlServer_order
  have hclosed : IsClosed statement.toList := by decide +kernel
  have hnone : ¬ HasOrderBy statement.toList := by decide +kernel
  have hbalanced : IsBalanced "from (".toList := by decide
  have hempty : WellNested "".toList := .nil
  have hnested : WellNested "order by ')'".toList := by
    have hliteral : WellNested ('\'' :: ([')'] ++ ['\'']) ++ []) :=
      .literal (by decide) (by decide) .nil
    exact hliteral.letters (t := "order by ".toList) (by simp [isNesting, isQuote])
  have hquote : isQuote '\'' = true := by decide
  have hbody : '\'' ∉ " order by (".toList := by decide
  have hnobody : '\'' ∉ "".toList := by decide
  have hsame := hliteral "from (" " order by (" "" ") u" '\'' hbalanced hquote hbody hnobody
  rw [show '\''.toString = "'" from by decide] at hsame
  refine ⟨hclosed, ?_, hbalanced, hnested, hempty,
    hgroup "from (" "order by ')'" "" ") u" hbalanced hnested hempty, hquote, hbody, hnobody, hsame⟩
  obtain ⟨heq, -⟩ := hpage statement 0 10 hclosed
  rw [heq, if_neg hnone]
  decide +kernel

/-- A group between the two words separates them as a blank does. -/
example : Dialect.sqlServer.addedOrder "select login from users order(1)by login" = "" := by
  decide +kernel

end Statement

end RealmDirectory
