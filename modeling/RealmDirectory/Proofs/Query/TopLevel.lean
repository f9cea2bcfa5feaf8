import RealmDirectory.Proofs.Query.Marks

/-!
# The top level of a statement

What is quoted or parenthesised in a statement is nested, and the rest is its top level. The
top level is looked at in a text of the same length, in which a blank stands for each nested
character. This module says what of the statement can be told from that text: a character that
is no blank stands at a place where nothing is open, and it is the character of the statement.

## Main definitions

* `IsClosed`: a text behind which neither a quote nor a parenthesis is open.
* `WellNested`: texts with balanced quotes and parentheses, by a grammar.
* `IsHidden`: a text from which nothing is shown at a place.

## Main results

* `topLevelFrom_append`: the top level of a text in two parts.
* `exists_of_topLevelFrom_eq_append`: a text whose top level is in two parts is in two parts.
* `eq_of_topLevelFrom_eq`: a word of the top level is a word of the statement.
* `isHidden_literal`, `WellNested.isHidden`: a literal is hidden, and so is a balanced text in
  parentheses.
* `isHidden_of_not_isClosed`: where something is open, text that does not nest is hidden.
* `topLevel_around_hidden`: the top level of a statement with a hidden part.
-/

namespace RealmDirectory.Statement

open Position

/-! ### Characters that nest -/

/-- Whether a character opens or closes something. -/
def isNesting (c : Char) : Bool := isQuote c || c == '(' || c == ')'

theorem isNesting_iff {c : Char} :
    isNesting c = true ↔ c = '\'' ∨ c = '"' ∨ c = '(' ∨ c = ')' := by
  simp [isNesting, isQuote, or_assoc]

theorem isNesting_eq_false_iff {c : Char} :
    isNesting c = false ↔ isQuote c = false ∧ c ≠ '(' ∧ c ≠ ')' := by
  simp [isNesting, and_assoc]

/-- Outside quotes, a character that does not nest leaves every position alone. -/
theorem next_of_not_isNesting {c : Char} (hc : isNesting c = false) (depth : Nat) :
    next ⟨none, depth⟩ c = ⟨none, depth⟩ := by
  obtain ⟨hquote, hopen, hclose⟩ := isNesting_eq_false_iff.mp hc
  exact next_eq_self rfl hquote hopen hclose

/-- A text behind which neither a quote nor a parenthesis is open. -/
def IsClosed (s : List Char) : Prop := Position.start.after s = .start

instance (s : List Char) : Decidable (IsClosed s) :=
  inferInstanceAs (Decidable (Position.start.after s = .start))

theorem IsClosed.append {x y : List Char} (hx : IsClosed x) (hy : IsClosed y) :
    IsClosed (x ++ y) := by
  rw [IsClosed, after_append, hx]
  exact hy

/-- A quote that is open behind a character was open before, or the character is that
quote. -/
theorem quote_next_eq_some {p : Position} {c q : Char} (h : (p.next c).quote = some q) :
    p.quote = some q ∨ isQuote q = true := by
  obtain ⟨quote, depth⟩ := p
  cases quote with
  | some r =>
      by_cases hc : c = r
      · simp [next, hc] at h
      · simp only [next, if_neg hc] at h
        exact .inl h
  | none =>
      cases hc : isQuote c with
      | true =>
          simp only [next, hc, if_true, Option.some.injEq] at h
          exact .inr (h ▸ hc)
      | false =>
          simp only [next, hc, Bool.false_eq_true, if_false] at h
          split_ifs at h

/-- Every quote that is open behind a text is a quote. -/
theorem isQuote_of_quote_after {s : List Char} {q : Char}
    (h : (Position.start.after s).quote = some q) : isQuote q = true := by
  induction s using List.reverseRecOn with
  | nil => cases h
  | append_singleton s c ih =>
      rw [after_append] at h
      exact (quote_next_eq_some h).elim ih id

/-- A closed text stays closed without a character at its end that does not nest. -/
theorem IsClosed.of_concat {s : List Char} {c : Char} (h : IsClosed (s ++ [c]))
    (hc : isNesting c = false) : IsClosed s := by
  have hquote : isQuote c = false := (isNesting_eq_false_iff.mp hc).1
  rw [IsClosed, after_append] at h
  have hopen (q : Char) : (Position.start.after s).quote = some q → isQuote q = true :=
    isQuote_of_quote_after
  rw [IsClosed]
  generalize Position.start.after s = p at h hopen ⊢
  obtain ⟨quote, depth⟩ := p
  cases quote with
  | none => exact (next_of_not_isNesting hc depth).symm.trans h
  | some q =>
      -- A quote that is open is closed by a quote only, so the text would not be closed.
      have hne : c ≠ q := by
        rintro rfl
        rw [hopen c rfl] at hquote
        cases hquote
      have hstay : next ⟨some q, depth⟩ c = ⟨some q, depth⟩ := if_neg hne
      cases hstay.symm.trans h

/-! ### The blanked text -/

/-- What stands for a character of a statement at its top level. -/
def shown (p : Position) (c : Char) : Char :=
  if p.isQuoted c || 0 < (p.next c).depth || c == ')' then ' ' else c

theorem topLevelFrom_cons (p : Position) (c : Char) (r : List Char) :
    topLevelFrom p (c :: r) = shown p c :: topLevelFrom (p.next c) r := rfl

theorem topLevelFrom_append (p : Position) (x y : List Char) :
    topLevelFrom p (x ++ y) = topLevelFrom p x ++ topLevelFrom (p.after x) y := by
  induction x generalizing p with
  | nil => rfl
  | cons c r ih =>
      rw [List.cons_append, topLevelFrom_cons, ih, topLevelFrom_cons, List.cons_append]
      rfl

/-- The top level behind a closed text is the top level of what is behind it. -/
theorem IsClosed.topLevel_append {x : List Char} (h : IsClosed x) (y : List Char) :
    topLevel (x ++ y) = topLevel x ++ topLevel y := by
  rw [topLevel, topLevelFrom_append, show Position.start.after x = .start from h]
  rfl

@[simp]
theorem length_topLevelFrom (p : Position) (s : List Char) :
    (topLevelFrom p s).length = s.length := by
  induction s generalizing p with
  | nil => rfl
  | cons c r ih => rw [topLevelFrom_cons, List.length_cons, List.length_cons, ih]

/-- A text whose top level is in two parts is in two parts. -/
theorem exists_of_topLevelFrom_eq_append {p : Position} {s x y : List Char}
    (h : topLevelFrom p s = x ++ y) :
    ∃ s₁ s₂, s = s₁ ++ s₂ ∧ topLevelFrom p s₁ = x ∧ topLevelFrom (p.after s₁) s₂ = y := by
  have hlength : x.length ≤ s.length := by
    rw [← length_topLevelFrom p s, h, List.length_append]
    exact Nat.le_add_right _ _
  have hsplit : s = s.take x.length ++ s.drop x.length := (List.take_append_drop _ s).symm
  rw [hsplit, topLevelFrom_append] at h
  have hfirst : (topLevelFrom p (s.take x.length)).length = x.length := by
    rw [length_topLevelFrom, List.length_take, Nat.min_eq_left hlength]
  obtain ⟨hx, hy⟩ := List.append_inj h hfirst
  exact ⟨_, _, hsplit, hx, hy⟩

/-- A character at the top level that does not nest is shown. -/
theorem shown_start {c : Char} (hc : isNesting c = false) : shown .start c = c := by
  obtain ⟨hquote, -, hclose⟩ := isNesting_eq_false_iff.mp hc
  rw [shown, start, next_of_not_isNesting hc]
  simp [isQuoted, hquote, hclose]

/-- **What is no blank is shown where nothing is open**, and does not nest. -/
theorem eq_of_shown_ne_blank {p : Position} {c : Char} (h : shown p c ≠ ' ') :
    shown p c = c ∧ p = .start ∧ isNesting c = false := by
  have hshown : ¬ (p.isQuoted c || 0 < (p.next c).depth || c == ')') = true := by
    intro hblank
    exact h (if_pos hblank)
  have heq : shown p c = c := if_neg hshown
  obtain ⟨quote, depth⟩ := p
  simp only [isQuoted, Bool.or_eq_true, decide_eq_true_eq, beq_iff_eq, not_or, Nat.not_lt,
    Nat.le_zero, Bool.not_eq_true, Option.isSome_eq_false_iff, Option.isNone_iff_eq_none] at hshown
  obtain ⟨⟨⟨rfl, hquote⟩, hdepth⟩, hclose⟩ := hshown
  have hopen : c ≠ '(' := by
    rintro rfl
    exact absurd hdepth (Nat.succ_ne_zero depth)
  have hplain : isNesting c = false := isNesting_eq_false_iff.mpr ⟨hquote, hopen, hclose⟩
  rw [next_of_not_isNesting hplain] at hdepth
  exact ⟨heq, congrArg (Position.mk none) hdepth, hplain⟩

/-- **A word of the top level is a word of the statement**, and nothing is open in front of it
or behind it. -/
theorem eq_of_topLevelFrom_eq {p : Position} {s w : List Char} (h : topLevelFrom p s = w)
    (hne : w ≠ []) (hblank : ∀ c ∈ w, c ≠ ' ') : s = w ∧ p = .start ∧ IsClosed s := by
  induction s generalizing p w with
  | nil => exact absurd h.symm hne
  | cons c r ih =>
      subst h
      rw [topLevelFrom_cons] at hblank ⊢
      obtain ⟨hc, hr⟩ := List.forall_mem_cons.mp hblank
      obtain ⟨hshown, rfl, hplain⟩ := eq_of_shown_ne_blank hc
      -- The letter that is shown changes nothing, so the rest is read from the start again.
      have hnext : next .start c = .start := next_of_not_isNesting hplain 0
      rw [hnext] at hr ⊢
      rw [hshown]
      cases r with
      | nil => exact ⟨rfl, rfl, hnext⟩
      | cons d r =>
          obtain ⟨heq, -, hclosed⟩ := ih rfl (List.cons_ne_nil _ _) hr
          refine ⟨congrArg (c :: ·) heq, rfl, ?_⟩
          rw [IsClosed, after, List.foldl_cons, hnext]
          exact hclosed

/-- Text that does not nest is shown at the top level, and nothing is open behind it. -/
theorem topLevel_of_not_isNesting {w : List Char} (h : ∀ c ∈ w, isNesting c = false) :
    topLevel w = w ∧ IsClosed w := by
  induction w with
  | nil => exact ⟨rfl, rfl⟩
  | cons c r ih =>
      obtain ⟨hc, hr⟩ := List.forall_mem_cons.mp h
      obtain ⟨heq, hclosed⟩ := ih hr
      have hnext : next .start c = .start := next_of_not_isNesting hc 0
      constructor
      · rw [topLevel, topLevelFrom_cons, shown_start hc, hnext, ← topLevel, heq]
      · rw [IsClosed, after, List.foldl_cons, hnext]
        exact hclosed

/-! ### Nested text -/

/-- A text with balanced quotes and parentheses: characters that do not nest, literals, and
balanced texts in parentheses. -/
inductive WellNested : List Char → Prop
  | nil : WellNested []
  | letter {c : Char} {r : List Char} :
      isNesting c = false → WellNested r → WellNested (c :: r)
  | literal {q : Char} {body r : List Char} :
      isQuote q = true → q ∉ body → WellNested r → WellNested (q :: (body ++ [q]) ++ r)
  | group {x r : List Char} :
      WellNested x → WellNested r → WellNested ('(' :: (x ++ [')']) ++ r)

/-- Characters that do not nest may stand in front of a balanced text. -/
theorem WellNested.letters {t r : List Char} (ht : ∀ c ∈ t, isNesting c = false)
    (hr : WellNested r) : WellNested (t ++ r) := by
  induction t with
  | nil => exact hr
  | cons c t ih =>
      obtain ⟨hc, ht⟩ := List.forall_mem_cons.mp ht
      exact .letter hc (ih ht)

/-- A text from which nothing is shown, and which leaves open what was open before it. -/
structure IsHidden (p : Position) (s : List Char) : Prop where
  blank : topLevelFrom p s = List.replicate s.length ' '
  after : p.after s = p

namespace IsHidden

variable {p : Position} {x y : List Char}

theorem append (hx : IsHidden p x) (hy : IsHidden p y) : IsHidden p (x ++ y) where
  blank := by
    rw [topLevelFrom_append, hx.after, hx.blank, hy.blank, List.replicate_append_replicate,
      List.length_append]
  after := by rw [after_append, hx.after, hy.after]

theorem cons {c : Char} (hshown : shown p c = ' ') (hstay : p.next c = p)
    (hx : IsHidden p x) : IsHidden p (c :: x) where
  blank := by
    rw [topLevelFrom_cons, hshown, hstay, hx.blank]
    rfl
  after := by
    rw [Position.after, List.foldl_cons, hstay]
    exact hx.after

/-- A hidden text between a character that opens something and the one that closes it. -/
theorem between {q : Position} {c d : Char} (hopen : p.next c = q) (hclose : q.next d = p)
    (hfirst : shown p c = ' ') (hlast : shown q d = ' ') (hx : IsHidden q x) :
    IsHidden p (c :: (x ++ [d])) where
  blank := by
    have hend : topLevelFrom q [d] = List.replicate 1 ' ' := congrArg (· :: []) hlast
    rw [topLevelFrom_cons, hfirst, hopen, topLevelFrom_append, hx.blank, hx.after, hend,
      List.replicate_append_replicate, List.length_cons, List.length_append]
    rfl
  after := by
    rw [Position.after, List.foldl_cons, hopen, ← Position.after, after_append, hx.after]
    exact hclose

end IsHidden

/-- Behind an open quote, a text is hidden that does not close it. -/
theorem isHidden_body {q : Char} {body : List Char} (h : q ∉ body) (depth : Nat) :
    IsHidden ⟨some q, depth⟩ body := by
  induction body with
  | nil => exact ⟨rfl, rfl⟩
  | cons c r ih =>
      obtain ⟨hc, hr⟩ := not_or.mp (mt List.mem_cons.mpr h)
      exact (ih hr).cons rfl (if_neg (Ne.symm hc))

/-- **A literal is hidden.** -/
theorem isHidden_literal {q : Char} (hq : isQuote q = true) {body : List Char} (h : q ∉ body)
    (depth : Nat) : IsHidden ⟨none, depth⟩ (q :: (body ++ [q])) :=
  .between (if_pos hq) (if_pos rfl) (by simp [shown, isQuoted, hq]) rfl (isHidden_body h depth)

/-- What is hidden in parentheses is hidden together with them. -/
theorem IsHidden.group {x : List Char} {depth : Nat} (h : IsHidden ⟨none, depth + 1⟩ x) :
    IsHidden ⟨none, depth⟩ ('(' :: (x ++ [')'])) := by
  have hopen : next ⟨none, depth⟩ '(' = ⟨none, depth + 1⟩ := rfl
  have hclose : next ⟨none, depth + 1⟩ ')' = ⟨none, depth⟩ := rfl
  exact .between hopen hclose (by simp [shown, hopen]) (by simp [shown]) h

/-- **A balanced text is hidden in parentheses.** -/
theorem WellNested.isHidden {x : List Char} (h : WellNested x) (depth : Nat) :
    IsHidden ⟨none, depth + 1⟩ x := by
  induction h generalizing depth with
  | nil => exact ⟨rfl, rfl⟩
  | letter hc _ ih =>
      have hstay := next_of_not_isNesting hc (depth + 1)
      exact (ih depth).cons (by simp [shown, hstay]) hstay
  | literal hq hbody _ ih => exact (isHidden_literal hq hbody (depth + 1)).append (ih depth)
  | group _ _ ihx ihr => exact (ihx (depth + 1)).group.append (ihr depth)

/-- **Where something is open, text that does not nest is hidden.** -/
theorem isHidden_of_not_isClosed {s w : List Char} (h : ¬ IsClosed s)
    (hw : ∀ c ∈ w, isNesting c = false) : IsHidden (Position.start.after s) w := by
  have hopen (q : Char) : (Position.start.after s).quote = some q → isQuote q = true :=
    isQuote_of_quote_after
  rw [IsClosed] at h
  generalize Position.start.after s = p at h hopen ⊢
  obtain ⟨quote, depth⟩ := p
  cases quote with
  | some q =>
      refine isHidden_body (fun hmem => ?_) depth
      have hquote := (isNesting_eq_false_iff.mp (hw q hmem)).1
      rw [hopen q rfl] at hquote
      cases hquote
  | none =>
      cases depth with
      | zero => exact absurd rfl h
      | succ depth =>
          have hnested : WellNested (w ++ []) := WellNested.nil.letters hw
          rw [List.append_nil] at hnested
          exact hnested.isHidden depth

/-- The top level of a statement with a hidden part behind a text that leaves no quote open. -/
theorem topLevel_around_hidden {p g : List Char} (hg : IsHidden (Position.start.after p) g)
    (s : List Char) :
    topLevel (p ++ (g ++ s)) =
      topLevel p ++ (List.replicate g.length ' ' ++ topLevelFrom (Position.start.after p) s) := by
  rw [topLevel, topLevelFrom_append, topLevelFrom_append, hg.blank, hg.after, ← topLevel]

end RealmDirectory.Statement
