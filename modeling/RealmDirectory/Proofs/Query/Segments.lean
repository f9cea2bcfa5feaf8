import Mathlib.Algebra.GroupWithZero.Nat
import Mathlib.Data.List.TakeWhile
import RealmDirectory.Proofs.Query.Marks

/-!
# The parts of a statement

A statement consists of stretches outside quotes and of parts in quotes: literals and quoted
names. This module has a reader of these parts by the lexical rule of SQL, by which a part in
quotes ends at the first quote of its own kind that is not doubled. The numbering of marks
knows no doubled quotes. It closes the part at the first of the two and opens another at the
second, and no character stands between them, so that the difference is never seen.

## Main definitions

* `Segment`, `segments`: the parts of a statement, and the reader of parts.
* `numberSegments`: the numbering of the marks that stand in stretches.

## Main results

* `text_segments`, `areProper_segments`: the parts are the statement, and each is a stretch
  without quotes or a part in quotes, of which only the last can be unclosed.
* `numberMarksFrom_eq_numberSegments`: the numbering that goes through the characters is the
  one that goes through the parts.
* `bindMarks_eq_numberSegments`: the numbered statement, the numbers in it, and what is behind
  a text that leaves no quote open.
-/

namespace RealmDirectory.Statement

open Position

/-! ### The reader of parts -/

/-- A part of a statement. -/
inductive Segment where
  /-- A text outside quotes. -/
  | stretch (text : List Char)
  /-- A literal or a quoted name, with the text between its quotes. It is not closed when the
  statement ends in it. -/
  | quoted (quote : Char) (body : List Char) (closed : Bool)
  deriving DecidableEq, Repr

namespace Segment

/-- The text of a part, its quotes included. -/
def text : Segment → List Char
  | stretch t => t
  | quoted q body closed => q :: (body ++ if closed then [q] else [])

/-- Whether a part leaves no quote open. -/
def isClosed : Segment → Bool
  | stretch _ => true
  | quoted _ _ closed => closed

/-- The number of marks in a part; what is in quotes is no mark. -/
def marks : Segment → Nat
  | stretch t => t.count '?'
  | quoted .. => 0

end Segment

/-- The text behind an opening quote, up to the quote that closes it, and the rest. -/
structure QuotedText where
  /-- The text between the quotes. -/
  body : List Char
  /-- Whether there is a closing quote. -/
  closed : Bool
  /-- The text behind the closing quote. -/
  rest : List Char
  deriving DecidableEq, Repr

/-- A quoted text that begins with further characters. -/
def QuotedText.behind (x : List Char) (t : QuotedText) : QuotedText :=
  { t with body := x ++ t.body }

/-- Reads a quoted text up to the first quote that is not doubled. A doubled quote belongs to
the text. -/
def readQuoted (q : Char) : List Char → QuotedText
  | [] => ⟨[], false, []⟩
  | c :: r =>
      if c = q then
        match r with
        | [] => ⟨[], true, []⟩
        | d :: r => if d = q then (readQuoted q r).behind [q, q] else ⟨[], true, d :: r⟩
      else (readQuoted q r).behind [c]

/-- A text in which a quote stands in pairs only. -/
inductive IsBody (q : Char) : List Char → Prop
  | nil : IsBody q []
  | letter {c : Char} {r : List Char} : c ≠ q → IsBody q r → IsBody q (c :: r)
  | doubled {r : List Char} : IsBody q r → IsBody q (q :: q :: r)

/-- What the reader of quoted texts makes of a text: a body with the quote in pairs, then the
closing quote and the rest, or nothing when there is no closing quote. -/
structure QuotedText.IsReadFrom (q : Char) (s : List Char) (t : QuotedText) : Prop where
  text : t.body ++ (if t.closed then [q] else []) ++ t.rest = s
  body : IsBody q t.body
  rest : t.closed = false → t.rest = []

theorem isReadFrom_readQuoted (q : Char) (s : List Char) :
    (readQuoted q s).IsReadFrom q s := by
  induction s using readQuoted.induct q with
  | case1 => exact ⟨rfl, .nil, fun _ => rfl⟩
  | case2 =>
      rw [readQuoted, if_pos rfl]
      exact ⟨rfl, .nil, fun _ => rfl⟩
  | case3 r ih =>
      simp only [readQuoted, if_true]
      exact ⟨congrArg (q :: q :: ·) ih.text, .doubled ih.body, ih.rest⟩
  | case4 d r hd =>
      simp only [readQuoted, if_true, if_neg hd]
      exact ⟨rfl, .nil, fun h => Bool.noConfusion h⟩
  | case5 c r hc ih =>
      rw [readQuoted.eq_def]
      simp only [if_neg hc]
      exact ⟨congrArg (c :: ·) ih.text, .letter hc ih.body, ih.rest⟩

/-- What is left behind a quoted text is no longer than the text. -/
theorem length_rest_readQuoted_le (q : Char) (s : List Char) :
    (readQuoted q s).rest.length ≤ s.length := by
  conv_rhs => rw [← (isReadFrom_readQuoted q s).text]
  rw [List.length_append]
  exact Nat.le_add_left _ _

/-- The parts of a statement, from its start: a quote opens a part in quotes, and any other
character a stretch that goes on to the next quote. -/
def segments : List Char → List Segment
  | [] => []
  | c :: r =>
      if isQuote c then
        let t := readQuoted c r
        .quoted c t.body t.closed :: segments t.rest
      else .stretch (c :: r.takeWhile (!isQuote ·)) :: segments (r.dropWhile (!isQuote ·))
termination_by s => s.length
decreasing_by
  · exact Nat.lt_succ_of_le (length_rest_readQuoted_le c r)
  · exact Nat.lt_succ_of_le (List.dropWhile_sublist _).length_le

/-! ### The parts are the statement -/

/-- A stretch has no quotes, and a part in quotes has its own quote in pairs only. -/
def Segment.IsProper : Segment → Prop
  | stretch t => ∀ c ∈ t, isQuote c = false
  | quoted q body _ => isQuote q = true ∧ IsBody q body

/-- Proper parts, of which only the last leaves a quote open. -/
def AreProper : List Segment → Prop
  | [] => True
  | g :: gs => g.IsProper ∧ (g.isClosed = false → gs = []) ∧ AreProper gs

theorem segments_nil : segments [] = [] := by rw [segments]

/-- **The parts of a statement, put together, are the statement.** -/
theorem text_segments (s : List Char) : (segments s).flatMap Segment.text = s := by
  induction s using segments.induct with
  | case1 => rw [segments_nil, List.flatMap_nil]
  | case2 c r hc t ih =>
      have htext := (isReadFrom_readQuoted c r).text
      rw [segments, if_pos hc, List.flatMap_cons, ih, Segment.text, List.cons_append, htext]
  | case3 c r hc ih =>
      rw [segments, if_neg hc, List.flatMap_cons, ih, Segment.text, List.cons_append,
        List.takeWhile_append_dropWhile]

/-- **The parts of a statement are proper.** -/
theorem areProper_segments (s : List Char) : AreProper (segments s) := by
  induction s using segments.induct with
  | case1 => rw [segments_nil]; exact trivial
  | case2 c r hc t ih =>
      have hread := isReadFrom_readQuoted c r
      rw [segments, if_pos hc]
      refine ⟨⟨hc, hread.body⟩, fun hopen => ?_, ih⟩
      rw [hread.rest hopen, segments_nil]
  | case3 c r hc ih =>
      rw [segments, if_neg hc]
      refine ⟨?_, fun hopen => Bool.noConfusion hopen, ih⟩
      refine List.forall_mem_cons.mpr ⟨Bool.eq_false_iff.mpr hc, fun d hd => ?_⟩
      simpa using List.mem_takeWhile_imp hd

/-! ### The numbering of the parts -/

/-- Numbers every question mark of a text, with `n` marks before it. -/
def numberText (n : Nat) : List Char → List Char
  | [] => []
  | c :: r =>
      if c = '?' then '$' :: (Text.decimal (n + 1) ++ numberText (n + 1) r)
      else c :: numberText n r

/-- Numbers the marks of a part. A part in quotes stays as it is. -/
def Segment.numbered (n : Nat) : Segment → List Char
  | stretch t => numberText n t
  | quoted q body closed => (quoted q body closed).text

/-- Numbers the marks of parts that stand one behind the other, with `n` marks before them. -/
def numberSegments (n : Nat) : List Segment → List Char
  | [] => []
  | g :: gs => g.numbered n ++ numberSegments (n + g.marks) gs

/-- The number of marks in a statement, counted in its parts. -/
def countMarks (s : List Char) : Nat := ((segments s).map Segment.marks).sum

/-- No part of a statement leaves a quote open. -/
def ClosesQuotes (s : List Char) : Prop := ∀ g ∈ segments s, g.isClosed = true

instance (s : List Char) : Decidable (ClosesQuotes s) :=
  inferInstanceAs (Decidable (∀ g ∈ segments s, g.isClosed = true))

/-! ### What quotes do to a position -/

/-- A quote is no mark. -/
theorem isMark_of_isQuote {q : Char} (h : isQuote q = true) (p : Position) :
    isMark p q = false := by
  refine isMark_eq_false_of_ne ?_ p
  rintro rfl
  exact absurd h (by decide)

theorem next_open {q : Char} (h : isQuote q = true) (depth : Nat) :
    next ⟨none, depth⟩ q = ⟨some q, depth⟩ := if_pos h

theorem next_close (q : Char) (depth : Nat) : next ⟨some q, depth⟩ q = ⟨none, depth⟩ :=
  if_pos rfl

/-- Outside quotes, a character that is no quote leaves the quotes alone. -/
theorem quote_next_of_not_isQuote {p : Position} (hp : p.quote = none) {c : Char}
    (hc : isQuote c = false) : (p.next c).quote = none := by
  unfold next
  simp only [hp, hc, Bool.false_eq_true, if_false]
  split_ifs
  · rfl
  · rfl
  · exact hp

/-! ### The numbering, part by part -/

section

variable {p : Position} {t : List Char}

/-- Every question mark of a stretch is a mark. -/
theorem numberMarksFrom_stretch (hp : p.quote = none) (ht : ∀ c ∈ t, isQuote c = false)
    (n : Nat) :
    numberMarksFrom p n t = numberText n t ∧ marksIn p t = t.count '?' ∧
      (p.after t).quote = none := by
  induction t generalizing p n with
  | nil => exact ⟨rfl, rfl, hp⟩
  | cons c r ih =>
      obtain ⟨hc, hr⟩ := List.forall_mem_cons.mp ht
      have hnext : (p.next c).quote = none := quote_next_of_not_isQuote hp hc
      by_cases hmark : c = '?'
      · subst hmark
        obtain ⟨hnumbers, hcount, hafter⟩ := ih hnext hr (n + 1)
        refine ⟨?_, ?_, hafter⟩
        · rw [numberMarksFrom_mark (isMark_question hp), numberText, if_pos rfl, hnumbers]
        · rw [marksIn, if_pos (isMark_question hp), hcount, List.count_cons_self, Nat.add_comm]
      · obtain ⟨hnumbers, hcount, hafter⟩ := ih hnext hr n
        have hother : isMark p c = false := isMark_eq_false_of_ne hmark p
        refine ⟨?_, ?_, hafter⟩
        · rw [numberMarksFrom_other hother, numberText, if_neg hmark, hnumbers]
        · rw [marksIn, hother, hcount, List.count_cons_of_ne hmark]
          exact Nat.zero_add _

/-- The text between quotes has no marks. A doubled quote in it closes the quotes for no
character at all, and opens them again. -/
theorem numberMarksFrom_body {q : Char} (hq : isQuote q = true) (ht : IsBody q t)
    (depth n : Nat) :
    numberMarksFrom ⟨some q, depth⟩ n t = t ∧ marksIn ⟨some q, depth⟩ t = 0 ∧
      after ⟨some q, depth⟩ t = ⟨some q, depth⟩ := by
  induction ht with
  | nil => exact ⟨rfl, rfl, rfl⟩
  | @letter c r hc _ ih =>
      have hother : isMark ⟨some q, depth⟩ c = false := by simp [isMark, isQuoted]
      have hstay : next ⟨some q, depth⟩ c = ⟨some q, depth⟩ := if_neg hc
      obtain ⟨hnumbers, hcount, hafter⟩ := ih
      refine ⟨?_, ?_, ?_⟩
      · rw [numberMarksFrom_other hother, hstay, hnumbers]
      · rw [marksIn, hother, hstay, hcount]
        rfl
      · rw [after, List.foldl_cons, hstay]
        exact hafter
  | doubled _ ih =>
      obtain ⟨hnumbers, hcount, hafter⟩ := ih
      refine ⟨?_, ?_, ?_⟩
      · rw [numberMarksFrom_other (isMark_of_isQuote hq _), next_close,
          numberMarksFrom_other (isMark_of_isQuote hq _), next_open hq, hnumbers]
      · rw [marksIn, isMark_of_isQuote hq, next_close, marksIn, isMark_of_isQuote hq,
          next_open hq, hcount]
        rfl
      · rw [after, List.foldl_cons, next_close, List.foldl_cons, next_open hq]
        exact hafter

end

/-- **A proper part is numbered as its characters are**, and leaves a quote open when it is
not closed. -/
theorem Segment.IsProper.numberMarksFrom {g : Segment} (hg : g.IsProper) {p : Position}
    (hp : p.quote = none) (n : Nat) :
    numberMarksFrom p n g.text = g.numbered n ∧ marksIn p g.text = g.marks ∧
      ((p.after g.text).quote = none ↔ g.isClosed = true) := by
  cases g with
  | stretch t =>
      obtain ⟨hnumbers, hcount, hafter⟩ := numberMarksFrom_stretch hp hg n
      exact ⟨hnumbers, hcount, iff_of_true hafter rfl⟩
  | quoted q body closed =>
      obtain ⟨hq, hbody⟩ := hg
      obtain ⟨quote, depth⟩ := p
      obtain rfl : quote = none := hp
      obtain ⟨hnumbers, hcount, hafter⟩ := numberMarksFrom_body hq hbody depth n
      rw [text, numberMarksFrom_other (isMark_of_isQuote hq _), marksIn, isMark_of_isQuote hq,
        after, List.foldl_cons, next_open hq, ← after, numberMarksFrom_append, marksIn_append,
        after_append, hnumbers, hcount, hafter]
      cases closed with
      | false => exact ⟨rfl, rfl, by simp [after, isClosed]⟩
      | true =>
          refine ⟨?_, ?_, iff_of_true ?_ rfl⟩
          · rw [if_pos rfl, numberMarksFrom_other (isMark_of_isQuote hq _)]
            rfl
          · rw [if_pos rfl, marksIn, isMark_of_isQuote hq]
            rfl
          · rw [if_pos rfl, after, List.foldl_cons, next_close]
            rfl

/-- **Proper parts are numbered as their characters are.** -/
theorem AreProper.numberMarksFrom {gs : List Segment} (h : AreProper gs) {p : Position}
    (hp : p.quote = none) (n : Nat) :
    numberMarksFrom p n (gs.flatMap Segment.text) = numberSegments n gs ∧
      marksIn p (gs.flatMap Segment.text) = (gs.map Segment.marks).sum ∧
      ((p.after (gs.flatMap Segment.text)).quote = none ↔ ∀ g ∈ gs, g.isClosed = true) := by
  induction gs generalizing p n with
  | nil => exact ⟨rfl, rfl, iff_of_true hp (List.forall_mem_nil _)⟩
  | cons g gs ih =>
      obtain ⟨hg, hlast, hgs⟩ := h
      obtain ⟨hnumbers, hcount, hafter⟩ := hg.numberMarksFrom hp n
      rw [List.flatMap_cons, numberMarksFrom_append, marksIn_append, after_append, hnumbers,
        hcount, List.map_cons, List.sum_cons, List.forall_mem_cons, ← hafter]
      by_cases hnone : (p.after g.text).quote = none
      · obtain ⟨hrest, hrestCount, hrestAfter⟩ := ih hgs hnone (n + g.marks)
        exact ⟨congrArg _ hrest, congrArg _ hrestCount, by rw [hrestAfter]; simp [hnone]⟩
      · -- Behind an open quote there are no parts.
        have hclosed : g.isClosed = false := Bool.eq_false_iff.mpr fun h => hnone (hafter.mpr h)
        obtain rfl : gs = [] := hlast hclosed
        exact ⟨rfl, rfl, by simp [after]⟩

/-- **The numbering through the characters is the one through the parts**, from every place
outside quotes, and a quote is open behind a text when one of its parts is not closed. -/
theorem numberMarksFrom_eq_numberSegments {p : Position} (hp : p.quote = none) (n : Nat)
    (s : List Char) :
    numberMarksFrom p n s = numberSegments n (segments s) ∧ marksIn p s = countMarks s ∧
      ((p.after s).quote = none ↔ ClosesQuotes s) := by
  have h := (areProper_segments s).numberMarksFrom hp n
  rwa [text_segments] at h

/-! ### What is inserted -/

/-- A stretch has a number for each of its question marks, and no question mark is left. -/
theorem count_numberText (n : Nat) (t : List Char) :
    (numberText n t).count '$' = t.count '$' + t.count '?' ∧ (numberText n t).count '?' = 0 := by
  induction t generalizing n with
  | nil => exact ⟨rfl, rfl⟩
  | cons d r ih =>
      by_cases hd : d = '?'
      · obtain ⟨hdollar, hquestion⟩ := ih (n + 1)
        have hnone {c : Char} (hc : c.isDigit = false) : (Text.decimal (n + 1)).count c = 0 :=
          List.count_eq_zero.mpr (Text.notMem_decimal hc _)
        rw [numberText, if_pos hd, hd]
        constructor
        · rw [List.count_cons_self, List.count_append, hnone (by decide), hdollar,
            List.count_cons_of_ne (by decide), List.count_cons_self]
          omega
        · rw [List.count_cons_of_ne (by decide), List.count_append, hnone (by decide), hquestion]
      · obtain ⟨hdollar, hquestion⟩ := ih n
        rw [numberText, if_neg hd]
        constructor
        · rw [List.count_cons, List.count_cons, List.count_cons_of_ne hd, hdollar]
          omega
        · rw [List.count_cons_of_ne hd, hquestion]

/-- A part has a number for each of its marks, and keeps the question marks that are none. -/
theorem Segment.count_numbered (n : Nat) (g : Segment) :
    (g.numbered n).count '$' = g.text.count '$' + g.marks ∧
      (g.numbered n).count '?' + g.marks = g.text.count '?' := by
  cases g with
  | stretch t =>
      obtain ⟨hdollar, hquestion⟩ := count_numberText n t
      exact ⟨hdollar, by rw [numbered, hquestion, Nat.zero_add]; rfl⟩
  | quoted q body closed => exact ⟨rfl, rfl⟩

/-- Parts have a number for each of their marks, and keep the question marks that are none. -/
theorem count_numberSegments (n : Nat) (gs : List Segment) :
    (numberSegments n gs).count '$' =
        (gs.flatMap Segment.text).count '$' + (gs.map Segment.marks).sum ∧
      (numberSegments n gs).count '?' + (gs.map Segment.marks).sum =
        (gs.flatMap Segment.text).count '?' := by
  induction gs generalizing n with
  | nil => exact ⟨rfl, rfl⟩
  | cons g gs ih =>
      obtain ⟨hdollar, hquestion⟩ := g.count_numbered n
      obtain ⟨hdollars, hquestions⟩ := ih (n + g.marks)
      rw [numberSegments, List.flatMap_cons, List.map_cons, List.sum_cons]
      simp only [List.count_append]
      omega

/-- **The numbered statement is the one of its parts**, which are the statement when they are
put together. There is a number for each mark outside quotes, and every other question mark is
kept. Behind a text that leaves no quote open, the numbers go on from those of the text. -/
theorem bindMarks_eq_numberSegments (statement : String) :
    let sent := Dialect.postgreSql.bindMarks statement
    sent.toList = numberSegments 0 (segments statement.toList) ∧
      (segments statement.toList).flatMap Segment.text = statement.toList ∧
      sent.toList.count '$' = statement.toList.count '$' + countMarks statement.toList ∧
      sent.toList.count '?' + countMarks statement.toList = statement.toList.count '?' ∧
      (ClosesQuotes statement.toList → ∀ behind : String,
        (Dialect.postgreSql.bindMarks (statement ++ behind)).toList =
          sent.toList ++
            numberSegments (countMarks statement.toList) (segments behind.toList)) := by
  intro sent
  have hsent (s : String) : (Dialect.postgreSql.bindMarks s).toList =
      numberMarksFrom .start 0 s.toList := String.toList_ofList
  obtain ⟨hnumbers, hmarks, hopen⟩ :=
    numberMarksFrom_eq_numberSegments (p := .start) rfl 0 statement.toList
  have hparts : sent.toList = numberSegments 0 (segments statement.toList) :=
    (hsent statement).trans hnumbers
  obtain ⟨hdollar, hquestion⟩ := count_numberSegments 0 (segments statement.toList)
  rw [text_segments, ← hparts] at hdollar hquestion
  refine ⟨hparts, text_segments _, hdollar, hquestion, fun hclosed behind => ?_⟩
  obtain ⟨hbehind, -, -⟩ := numberMarksFrom_eq_numberSegments (hopen.mpr hclosed)
    (0 + marksIn .start statement.toList) behind.toList
  rw [hsent, String.toList_append, numberMarksFrom_append, hbehind, hsent, hmarks, Nat.zero_add]

/-- A literal with a doubled quote and a mark, and a quoted name with a quote of the other
kind: one mark is numbered in front, and the numbers go on behind. -/
theorem bindMarks_eq_numberSegments_doubled :
    let statement := "note <> 'it''s ?' and \"what's ?\" = ? and b = "
    ClosesQuotes statement.toList ∧
      (Dialect.postgreSql.bindMarks (statement ++ "? or c = '?")).toList =
        (Dialect.postgreSql.bindMarks statement).toList ++ "$2 or c = '?".toList := by
  intro statement
  have hclosed : ClosesQuotes statement.toList := by decide +kernel
  obtain ⟨-, -, -, -, hbehind⟩ := bindMarks_eq_numberSegments statement
  refine ⟨hclosed, (hbehind hclosed _).trans (congrArg _ ?_)⟩
  decide +kernel

end RealmDirectory.Statement
