import RealmDirectory.Proofs.Query.Ordering

/-!
# Comments in statements

A statement is read without regard to comments: two dashes are text, and so is what stands
behind them up to the end of the line. A comment can therefore change how the statement behind
it is rewritten. An apostrophe in it opens a literal, a `?` takes a number, a parenthesis nests,
and the words ORDER BY count as an ordering.

This module says exactly which comments change nothing. The marks behind a comment keep their
numbers when the comment closes its quotes and has no mark. The ordering of a page is added as
it is without the comment when nothing is left open behind the comment, its top level has no
ORDER BY, and it ends in the word ORDER if and only if the text in front of it does: the word BY
in the next line would complete either.

## Main definitions

* `commented`: a text with a comment in its last line.
* `IsNumberedAlike`: a text has the same numbers behind two others.

## Main results

* `isNumberedAlike_commented_iff`: the comments behind which every text keeps its numbers.
* `addedOrder_commented_iff`: the comments that do not decide on the ordering of a page.
* `commented_changes_statement`: two comments that change the statement behind them.
* `commented_keeps_statement_iff`: the comments that change nothing.
-/

namespace RealmDirectory.Statement

open Position

/-- A text with a comment in its last line, up to the start of the next line. -/
def commented (text comment : String) : String := text ++ "--" ++ comment ++ "\n"

/-- A text has the same numbers behind two others: what the numbering makes of it is the same
in both places. -/
def IsNumberedAlike (x y behind : String) : Prop :=
  ∃ numbered, Dialect.postgreSql.bindMarks (x ++ behind) =
      Dialect.postgreSql.bindMarks x ++ numbered ∧
    Dialect.postgreSql.bindMarks (y ++ behind) = Dialect.postgreSql.bindMarks y ++ numbered

/-! ### Behind a comment -/

/-- A line break leaves open what is open in front of it. -/
theorem after_concat_newline (s : List Char) :
    Position.start.after (s ++ ['\n']) = Position.start.after s := by
  have hopen (q : Char) : (Position.start.after s).quote = some q → isQuote q = true :=
    isQuote_of_quote_after
  rw [after_append]
  generalize Position.start.after s = p at hopen ⊢
  obtain ⟨quote, depth⟩ := p
  cases quote with
  | none => exact next_of_not_isNesting (c := '\n') (by decide) depth
  | some q =>
      have hne : '\n' ≠ q := by
        rintro rfl
        exact absurd (hopen '\n' rfl) (by decide)
      exact if_neg hne

theorem toList_newline (a : String) : (a ++ "\n").toList = a.toList ++ ['\n'] := by
  rw [String.toList_append]
  rfl

theorem toList_commented (a c : String) :
    (commented a c).toList = a.toList ++ '-' :: ([] ++ '-' :: (c.toList ++ ['\n'])) := by
  have hdashes : "--".toList = ['-', '-'] := rfl
  have hnewline : "\n".toList = ['\n'] := rfl
  simp only [commented, String.toList_append, hdashes, hnewline, List.append_assoc,
    List.cons_append, List.nil_append]

section

variable {a : String}

/-- **Behind a comment, open is what the comment opens.** -/
theorem after_commented (ha : IsClosed a.toList) (c : String) :
    Position.start.after (commented a c).toList = Position.start.after c.toList := by
  rw [toList_commented, after_append, show Position.start.after a.toList = .start from ha]
  exact after_concat_newline c.toList

/-- Behind a closed text and a line break, nothing is open. -/
theorem after_newline (ha : IsClosed a.toList) :
    Position.start.after (a ++ "\n").toList = .start := by
  rw [toList_newline, after_concat_newline]
  exact ha

/-- The marks of a text with a comment are those of the text and those of the comment. -/
theorem marksIn_commented (ha : IsClosed a.toList) (c : String) :
    marksIn .start (commented a c).toList =
      marksIn .start a.toList + marksIn .start c.toList := by
  have hnewline (p : Position) : marksIn p ['\n'] = 0 := marksIn_of_notMem (by decide) p
  have hdash (s : List Char) : marksIn .start ('-' :: s) = marksIn .start s := by
    rw [marksIn, isMark_eq_false_of_ne (by decide), if_neg Bool.false_ne_true, Nat.zero_add]
    rfl
  rw [toList_commented, marksIn_append, show Position.start.after a.toList = .start from ha,
    hdash, List.nil_append, hdash, marksIn_append, hnewline, Nat.add_zero]

/-- A line break is no mark. -/
theorem marksIn_newline (a : String) :
    marksIn .start (a ++ "\n").toList = marksIn .start a.toList := by
  have hnewline : '?' ∉ ['\n'] := by decide
  rw [toList_newline, marksIn_append, marksIn_of_notMem hnewline, Nat.add_zero]

end

/-! ### Numbers behind a comment -/

/-- The numbering depends on the open quote and not on open parentheses. -/
theorem numberMarksFrom_congr {p q : Position} (h : p.quote = q.quote) (n : Nat)
    (s : List Char) : numberMarksFrom p n s = numberMarksFrom q n s := by
  induction s generalizing p q n with
  | nil => rfl
  | cons c r ih =>
      have hnext : (p.next c).quote = (q.next c).quote := quote_next_eq h c
      have hquoted : p.isQuoted c = q.isQuoted c := by rw [isQuoted, isQuoted, h]
      rw [numberMarksFrom, numberMarksFrom, hquoted, ih hnext, ih hnext]

/-- A text has the same numbers behind two others when it is numbered alike from the places
behind them. -/
theorem isNumberedAlike_iff {x y b : String} :
    IsNumberedAlike x y b ↔
      numberMarksFrom (Position.start.after x.toList) (marksIn .start x.toList) b.toList =
        numberMarksFrom (Position.start.after y.toList) (marksIn .start y.toList) b.toList := by
  have hbind (x : String) (t : List Char) :
      Dialect.postgreSql.bindMarks (x ++ b) = Dialect.postgreSql.bindMarks x ++ String.ofList t ↔
        numberMarksFrom (Position.start.after x.toList) (marksIn .start x.toList) b.toList = t := by
    rw [← String.toList_inj]
    simp only [Dialect.bindMarks, numberMarks, String.toList_append, String.toList_ofList,
      numberMarksFrom_append, Nat.zero_add, List.append_cancel_left_eq]
  constructor
  · rintro ⟨t, hx, hy⟩
    rw [← String.ofList_toList (s := t), hbind] at hx hy
    exact hx.trans hy.symm
  · intro h
    exact ⟨_, (hbind x _).mpr h, (hbind y _).mpr rfl⟩

/-- **The comments behind which every text keeps its numbers** are those that close their quotes
and have no marks. -/
theorem isNumberedAlike_commented_iff {a : String} (ha : IsClosed a.toList) (c : String) :
    (∀ b, IsNumberedAlike (commented a c) (a ++ "\n") b) ↔
      IsBalanced c.toList ∧ marksIn .start c.toList = 0 := by
  simp only [isNumberedAlike_iff, after_commented ha, marksIn_commented ha, after_newline ha,
    marksIn_newline]
  constructor
  · intro h
    -- A single mark behind the comment shows both what is open there and how many it is.
    have hmark := h "?"
    have hstart : isMark .start '?' = true := isMark_question rfl
    rw [show "?".toList = ['?'] from rfl, numberMarksFrom_mark hstart] at hmark
    have hbalanced : IsBalanced c.toList := by
      by_contra hopen
      have hquoted : isMark (Position.start.after c.toList) '?' = false :=
        Bool.eq_false_iff.mpr fun hc => hopen (eq_of_isMark hc).2
      rw [numberMarksFrom_other hquoted] at hmark
      exact absurd (List.cons.inj hmark).1 (by decide)
    rw [numberMarksFrom_mark (isMark_question hbalanced)] at hmark
    have hnumber := Text.decimal_injective (List.append_cancel_right (List.cons.inj hmark).2)
    exact ⟨hbalanced, by omega⟩
  · rintro ⟨hbalanced, hmarks⟩ b
    rw [hmarks, Nat.add_zero]
    exact numberMarksFrom_congr (hbalanced.trans rfl) _ _

/-! ### The ordering behind a comment -/

theorem isSeparator_dash : IsSeparator '-' := ⟨by decide, by decide, by decide⟩

/-- Whatever is open, a line break is shown as a blank that separates words. -/
theorem isSeparator_shown_newline (p : Position) :
    IsSeparator (shown p '\n') ∧ Text.isBlank (shown p '\n') = true := by
  rw [shown]
  split
  · exact ⟨isSeparator_blank, by decide⟩
  · exact ⟨⟨by decide, by decide, by decide⟩, by decide⟩

/-- The words ORDER BY are found behind a line break, in front of it, or around it. -/
theorem hasOrderBy_topLevel_newline_iff (s : List Char) (b : List Char) :
    hasOrderBy (topLevel (s ++ '\n' :: b)) = true ↔
      HasOrderBy s ∨
        EndsInOrder (topLevel s) ∧
          beginsWithBy (Text.dropBlanks (topLevelFrom (Position.start.after s) b)) = true ∨
        hasOrderBy (topLevelFrom (Position.start.after s) b) = true := by
  obtain ⟨hseparator, hblank⟩ := isSeparator_shown_newline (Position.start.after s)
  have hnext : (Position.start.after s).next '\n' = Position.start.after s :=
    (after_append .start s ['\n']).symm.trans (after_concat_newline s)
  rw [topLevel, topLevelFrom_append, topLevelFrom_cons, hnext,
    hasOrderBy_append_separator_iff hseparator, ← topLevel, hasOrderBy_topLevel_iff]
  simp only [hblank, true_and]

/-- No word goes on across the dashes of a comment. -/
theorem hasOrderBy_commented_iff {a : String} (ha : IsClosed a.toList) (c b : String) :
    HasOrderBy (commented a c ++ b).toList ↔
      HasOrderBy a.toList ∨ hasOrderBy (topLevel (c.toList ++ '\n' :: b.toList)) = true := by
  have hdash : Text.isBlank '-' = false := by decide
  have hnone : hasOrderBy [] = false := rfl
  have htop : topLevel (commented a c ++ b).toList =
      topLevel a.toList ++ '-' :: ([] ++ '-' :: topLevel (c.toList ++ '\n' :: b.toList)) := by
    rw [String.toList_append, toList_commented, List.append_assoc, ha.topLevel_append]
    simp only [List.cons_append, List.nil_append, List.append_assoc]
    rfl
  rw [← hasOrderBy_topLevel_iff, htop, hasOrderBy_append_separator_iff isSeparator_dash,
    hasOrderBy_append_separator_iff isSeparator_dash, hasOrderBy_topLevel_iff]
  simp only [hdash, hnone, Bool.false_eq_true, false_and, and_false, false_or]

/-- The ordering is added to both of two statements or to neither when both have one or neither
has. -/
theorem addedOrder_eq_iff {x y : String} :
    Dialect.sqlServer.addedOrder x = Dialect.sqlServer.addedOrder y ↔
      (HasOrderBy x.toList ↔ HasOrderBy y.toList) := by
  have hne : " ORDER BY (SELECT NULL)" ≠ "" := by decide
  rw [addedOrder_eq, addedOrder_eq]
  by_cases hx : HasOrderBy x.toList <;> by_cases hy : HasOrderBy y.toList <;>
    simp [hx, hy]

/-- **The comments that do not decide on the ordering of a page**: any comment behind a text that
has an ordering, and otherwise those that leave nothing open, have no ordering, and end in the
word ORDER exactly when the text does. -/
theorem addedOrder_commented_iff {a : String} (ha : IsClosed a.toList) (c : String) :
    (∀ b, Dialect.sqlServer.addedOrder (commented a c ++ b) =
        Dialect.sqlServer.addedOrder (a ++ "\n" ++ b)) ↔
      HasOrderBy a.toList ∨
        IsClosed c.toList ∧ ¬ HasOrderBy c.toList ∧
          (EndsInOrder (topLevel c.toList) ↔ EndsInOrder (topLevel a.toList)) := by
  have hplain (b : String) : HasOrderBy (a ++ "\n" ++ b).toList ↔
      HasOrderBy a.toList ∨ EndsInOrder (topLevel a.toList) ∧
          beginsWithBy (Text.dropBlanks (topLevel b.toList)) = true ∨ HasOrderBy b.toList := by
    rw [← hasOrderBy_topLevel_iff, String.toList_append, toList_newline, List.append_assoc,
      List.singleton_append, hasOrderBy_topLevel_newline_iff,
      show Position.start.after a.toList = .start from ha, ← topLevel, hasOrderBy_topLevel_iff]
  simp only [addedOrder_eq_iff, hasOrderBy_commented_iff ha, hplain,
    hasOrderBy_topLevel_newline_iff]
  constructor
  · intro h
    by_cases horder : HasOrderBy a.toList
    · exact .inl horder
    · simp only [horder, false_or] at h
      have hnone : ¬ HasOrderBy c.toList := by
        intro hc
        rcases (h "").mp (.inl hc) with ⟨-, hby⟩ | hwords
        · exact absurd hby (by decide)
        · exact absurd hwords (by decide)
      -- What is left open hides the words that are an ordering without the comment.
      have hclosed : IsClosed c.toList := by
        by_contra hopen
        have hletters : ∀ c ∈ "order by".toList, isNesting c = false :=
          List.forall_iff_forall_mem.mp (by decide)
        have hhidden := (isHidden_of_not_isClosed hopen hletters).blank
        rcases (h "order by").mpr (.inr (by decide)) with hc | ⟨-, hby⟩ | hwords
        · exact hnone hc
        · rw [hhidden] at hby
          exact absurd hby (by decide)
        · rw [hhidden] at hwords
          exact absurd hwords (by decide)
      -- The word BY in the next line completes the word ORDER at the end of either text.
      have hby := h "by"
      have hbegins : beginsWithBy (Text.dropBlanks (topLevel "by".toList)) = true := by decide
      have hwords : ¬ HasOrderBy "by".toList := by decide
      rw [show Position.start.after c.toList = .start from hclosed, ← topLevel,
        hasOrderBy_topLevel_iff] at hby
      simp only [hnone, hbegins, hwords, false_or, or_false, and_true] at hby
      exact .inr ⟨hclosed, hnone, hby⟩
  · rintro (horder | ⟨hclosed, hnone, hends⟩) b
    · simp only [horder, true_or]
    · rw [show Position.start.after c.toList = .start from hclosed, ← topLevel,
        hasOrderBy_topLevel_iff, hends]
      simp only [hnone, false_or]

/-! ### Statements with comments -/

/-- Two comments that change the statement behind them. The apostrophe of the first one opens a
literal, in which a mark is not numbered. The second one has the words ORDER BY, and no ordering
is added. -/
theorem commented_changes_statement :
    let a := "select login from users where id = ? "
    let b := "and login = ?"
    let quoted := " the user's id"
    let worded := " we order by login elsewhere"
    (IsClosed a.toList ∧ '\n' ∉ quoted.toList ∧ '\n' ∉ worded.toList) ∧
      ¬ IsNumberedAlike (commented a quoted) (a ++ "\n") b ∧
      Dialect.postgreSql.bindMarks (commented a quoted ++ b) =
        "select login from users where id = $1 -- the user's id\nand login = ?" ∧
      Dialect.postgreSql.bindMarks (a ++ "\n" ++ b) =
        "select login from users where id = $1 \nand login = $2" ∧
      Dialect.sqlServer.addedOrder (commented a worded ++ b) = "" ∧
      Dialect.sqlServer.addedOrder (a ++ "\n" ++ b) = " ORDER BY (SELECT NULL)" := by
  intro a b quoted worded
  refine ⟨by decide +kernel, ?_, by decide +kernel, by decide +kernel, by decide +kernel,
    by decide +kernel⟩
  rw [isNumberedAlike_iff]
  decide +kernel

/-- **The comments that change nothing.** Behind a text that leaves nothing open, a comment
leaves the numbers of every text behind it as they are without the comment exactly when it
closes its quotes and has no mark outside quotes. It does not decide on the ordering of a page,
whatever is behind it, exactly when the text in front of it has an ordering, or when the comment
leaves nothing open, has no ordering at its top level, and ends in the word ORDER if and only if
the text in front of it does. -/
theorem commented_keeps_statement_iff {a : String} (ha : IsClosed a.toList) (c : String) :
    ((∀ b, IsNumberedAlike (commented a c) (a ++ "\n") b) ↔
      IsBalanced c.toList ∧ marksIn .start c.toList = 0) ∧
    ((∀ b, Dialect.sqlServer.addedOrder (commented a c ++ b) =
        Dialect.sqlServer.addedOrder (a ++ "\n" ++ b)) ↔
      HasOrderBy a.toList ∨
        IsClosed c.toList ∧ ¬ HasOrderBy c.toList ∧
          (EndsInOrder (topLevel c.toList) ↔ EndsInOrder (topLevel a.toList))) :=
  ⟨isNumberedAlike_commented_iff ha c, addedOrder_commented_iff ha c⟩

/-- Two apostrophes, a quoted mark in parentheses and the word ORDER at the end of the line, as
it is at the end of the line without the comment: nothing changes. -/
theorem commented_keeps_statement_apostrophes :
    let a := "select login from users where id = ? order "
    let c := " it's (\"?\") one user's order"
    IsClosed a.toList ∧ (∀ b, IsNumberedAlike (commented a c) (a ++ "\n") b) ∧
      ∀ b, Dialect.sqlServer.addedOrder (commented a c ++ b) =
        Dialect.sqlServer.addedOrder (a ++ "\n" ++ b) := by
  intro a c
  have ha : IsClosed a.toList := by decide +kernel
  obtain ⟨hnumbers, horder⟩ := commented_keeps_statement_iff ha c
  have hbalanced : IsBalanced c.toList := by decide +kernel
  have hmarks : marksIn .start c.toList = 0 := by decide +kernel
  have hclosed : IsClosed c.toList := by decide +kernel
  have hnone : ¬ HasOrderBy c.toList := by decide +kernel
  have hends {s u r : List Char} (hs : s = u ++ r) (hu : u.getLast? = some ' ')
      (hr : IsOrder r) : EndsInOrder s := by
    refine ⟨u, r, hs, fun d hd => ?_, hr⟩
    obtain rfl : ' ' = d := Option.some.inj (hu.symm.trans hd)
    decide
  have htext : EndsInOrder (topLevel a.toList) :=
    hends (u := "select login from users where id = ? ".toList) (r := "order ".toList)
      (by decide +kernel) (by decide +kernel)
      ⟨"order".toList, [' '], rfl, by decide, List.forall_mem_singleton.mpr rfl⟩
  have hcomment : EndsInOrder (topLevel c.toList) :=
    hends (u := topLevel " it's (\"?\") one user's ".toList) (r := "order".toList)
      (by decide +kernel) (by decide +kernel) ⟨"order".toList, [], rfl, by decide, nofun⟩
  exact ⟨ha, hnumbers.mpr ⟨hbalanced, hmarks⟩,
    horder.mpr (.inr ⟨hclosed, hnone, iff_of_true hcomment htext⟩)⟩

end RealmDirectory.Statement
