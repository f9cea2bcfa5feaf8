import Mathlib.Data.List.Chain
import RealmDirectory.Proofs.Text.Decimal
import RealmDirectory.Proofs.Text.Trimming
import RealmDirectory.Query.Page

/-!
# Numbered marks

Numbering goes through a statement once, from left to right, and knows at every place
whether a quote is open and how many marks it has passed. What it does to a text in two
parts is therefore what it does to the parts, the second one begun where the first one left
off: at the position behind it and with its marks counted.

The numbered statement is read the way a database reads it: a mark is a dollar sign outside
quotes with all the digits behind it. Read so, a statement in which no digit stands directly
behind a mark has the numbers from one up, and gives back what it was before.

## Main results

* `numberMarksFrom_append`: the numbering of a text in two parts.
* `numberMarksFrom_dropEndWhile`, `bindMarks_paginate`: numbering and paging commute.
* `numbersFrom_numberMarksFrom`, `unnumberFrom_numberMarksFrom`: a numbered statement is read back.
* `notMem_numberMarksFrom`: no mark is left when none is quoted.
-/

namespace RealmDirectory

namespace Statement

/-! ### Positions -/

namespace Position

theorem after_append (p : Position) (x y : List Char) :
    p.after (x ++ y) = (p.after x).after y :=
  List.foldl_append

/-- Whether a quote is open behind a character depends on the open quote alone. -/
theorem quote_next_eq {p q : Position} (h : p.quote = q.quote) (c : Char) :
    (p.next c).quote = (q.next c).quote := by
  obtain ⟨quote, depth⟩ := p
  obtain ⟨_, depth'⟩ := q
  subst h
  cases quote with
  | none => simp only [next]; split_ifs <;> rfl
  | some d => simp only [next]; split_ifs <;> rfl

theorem quote_after_eq {p q : Position} (h : p.quote = q.quote) (s : List Char) :
    (p.after s).quote = (q.after s).quote := by
  induction s generalizing p q with
  | nil => exact h
  | cons c r ih => exact ih (quote_next_eq h c)

/-- A character that is neither a quote nor a parenthesis leaves every position alone,
unless a quote is closed by it. -/
theorem next_eq_self {p : Position} (hp : p.quote = none) {c : Char} (hquote : isQuote c = false)
    (hopen : c ≠ '(') (hclose : c ≠ ')') : p.next c = p := by
  unfold next
  simp only [hp, hquote, Bool.false_eq_true, if_false, hopen, hclose]

end Position

/-- A text that closes every quote that it opens. -/
def IsBalanced (s : List Char) : Prop := (Position.start.after s).quote = none

instance (s : List Char) : Decidable (IsBalanced s) :=
  inferInstanceAs (Decidable ((Position.start.after s).quote = none))

theorem IsBalanced.quote_after {s : List Char} (h : IsBalanced s) {p : Position}
    (hp : p.quote = none) : (p.after s).quote = none :=
  (Position.quote_after_eq (hp.trans rfl : p.quote = Position.start.quote) s).trans h

theorem IsBalanced.append {x y : List Char} (hx : IsBalanced x) (hy : IsBalanced y) :
    IsBalanced (x ++ y) := by
  rw [IsBalanced, Position.after_append]
  exact hy.quote_after hx

/-! ### The numbering of a text in parts -/

/-- Whether a character is a mark at a position. -/
def isMark (p : Position) (c : Char) : Bool := c = '?' && !p.isQuoted c

/-- The number of marks outside quotes in a text that starts at a position. -/
def marksIn (p : Position) : List Char → Nat
  | [] => 0
  | c :: r => (if isMark p c then 1 else 0) + marksIn (p.next c) r

theorem numberMarksFrom_mark {p : Position} {c : Char} (h : isMark p c = true) (n : Nat)
    (r : List Char) :
    numberMarksFrom p n (c :: r) =
      '$' :: (Text.decimal (n + 1) ++ numberMarksFrom (p.next c) (n + 1) r) := by
  rw [numberMarksFrom]
  exact if_pos h

theorem numberMarksFrom_other {p : Position} {c : Char} (h : isMark p c = false) (n : Nat)
    (r : List Char) : numberMarksFrom p n (c :: r) = c :: numberMarksFrom (p.next c) n r := by
  rw [numberMarksFrom]
  exact if_neg (Bool.eq_false_iff.mp h)

/-- A character at a position with no open quote is a mark when it is a question mark. -/
theorem isMark_question {p : Position} (hp : p.quote = none) : isMark p '?' = true := by
  rw [isMark, Position.isQuoted, hp]
  rfl

theorem isMark_eq_false_of_ne {c : Char} (h : c ≠ '?') (p : Position) : isMark p c = false := by
  simp [isMark, h]

theorem eq_of_isMark {p : Position} {c : Char} (h : isMark p c = true) :
    c = '?' ∧ p.quote = none := by
  simp only [isMark, Position.isQuoted, Bool.and_eq_true, decide_eq_true_eq,
    Bool.not_eq_true', Bool.or_eq_false_iff] at h
  exact ⟨h.1, Option.isSome_eq_false_iff.mp h.2.1 |> Option.isNone_iff_eq_none.mp⟩

/-- A mark leaves its position alone. -/
theorem next_of_isMark {p : Position} {c : Char} (h : isMark p c = true) : p.next c = p := by
  obtain ⟨rfl, hp⟩ := eq_of_isMark h
  exact Position.next_eq_self hp (by decide) (by decide) (by decide)

/-- **A text in two parts is numbered part by part.** -/
theorem numberMarksFrom_append (p : Position) (n : Nat) (x y : List Char) :
    numberMarksFrom p n (x ++ y) =
      numberMarksFrom p n x ++ numberMarksFrom (p.after x) (n + marksIn p x) y := by
  induction x generalizing p n with
  | nil => rfl
  | cons c r ih =>
      rw [List.cons_append, marksIn]
      cases hc : isMark p c with
      | true =>
          rw [numberMarksFrom_mark hc, numberMarksFrom_mark hc, ih, if_pos rfl,
            Nat.add_assoc n, List.cons_append, List.append_assoc]
          rfl
      | false =>
          rw [numberMarksFrom_other hc, numberMarksFrom_other hc, ih, if_neg Bool.false_ne_true,
            Nat.zero_add, List.cons_append]
          rfl

theorem marksIn_append (p : Position) (x y : List Char) :
    marksIn p (x ++ y) = marksIn p x + marksIn (p.after x) y := by
  induction x generalizing p with
  | nil => exact (Nat.zero_add _).symm
  | cons c r ih =>
      rw [List.cons_append, marksIn, marksIn, ih, Nat.add_assoc]
      rfl

/-- A text without question marks is not changed. -/
theorem numberMarksFrom_of_notMem {s : List Char} (h : '?' ∉ s) (p : Position) (n : Nat) :
    numberMarksFrom p n s = s := by
  induction s generalizing p n with
  | nil => rfl
  | cons c r ih =>
      obtain ⟨hc, hr⟩ := not_or.mp (mt List.mem_cons.mpr h)
      rw [numberMarksFrom_other (isMark_eq_false_of_ne (Ne.symm hc) p), ih hr]

theorem marksIn_of_notMem {s : List Char} (h : '?' ∉ s) (p : Position) : marksIn p s = 0 := by
  induction s generalizing p with
  | nil => rfl
  | cons c r ih =>
      obtain ⟨hc, hr⟩ := not_or.mp (mt List.mem_cons.mpr h)
      rw [marksIn, isMark_eq_false_of_ne (Ne.symm hc) p, ih hr]
      rfl

theorem marksIn_le_count (p : Position) (s : List Char) : marksIn p s ≤ s.count '?' := by
  induction s generalizing p with
  | nil => exact Nat.le_refl 0
  | cons c r ih =>
      rw [marksIn, List.count_cons, Nat.add_comm]
      refine Nat.add_le_add (ih (p.next c)) ?_
      cases hc : isMark p c with
      | true => rw [(eq_of_isMark hc).1]; rfl
      | false => exact Nat.zero_le _

/-- **No question mark is left in a text** that has none inside quotes. -/
theorem notMem_numberMarksFrom {p : Position} {s : List Char} (h : marksIn p s = s.count '?')
    (n : Nat) : '?' ∉ numberMarksFrom p n s := by
  induction s generalizing p n with
  | nil => exact List.not_mem_nil
  | cons c r ih =>
      have hr : marksIn (p.next c) r ≤ r.count '?' := marksIn_le_count (p.next c) r
      rw [marksIn, List.count_cons] at h
      cases hc : isMark p c with
      | true =>
          obtain ⟨rfl, -⟩ := eq_of_isMark hc
          have hrest : marksIn (p.next '?') r = r.count '?' := by
            simp only [hc, if_true, beq_self_eq_true] at h
            omega
          rw [numberMarksFrom_mark hc, List.mem_cons, List.mem_append]
          rintro (hmem | hmem | hmem)
          · exact absurd hmem (by decide)
          · exact Text.notMem_decimal (by decide) _ hmem
          · exact ih hrest (n + 1) hmem
      | false =>
          simp only [hc, Bool.false_eq_true, if_false] at h
          have hne : (c == '?') = false := by
            cases hq : c == '?' with
            | false => rfl
            | true =>
                simp only [hq, if_true] at h
                omega
          have hrest : marksIn (p.next c) r = r.count '?' := by
            simp only [hne, Bool.false_eq_true, if_false] at h
            omega
          rw [numberMarksFrom_other hc, List.mem_cons]
          rintro (rfl | hmem)
          · exact absurd hne (by decide)
          · exact ih hrest n hmem

/-! ### Numbering and paging -/

/-- Characters of which none is part of a mark, numbered or not. -/
structure IsApart (q : Char → Bool) : Prop where
  question : q '?' = false
  dollar : q '$' = false
  digit : ∀ c, c.isDigit = true → q c = false

theorem isEmpty_numberMarksFrom (p : Position) (n : Nat) (s : List Char) :
    (numberMarksFrom p n s).isEmpty = s.isEmpty := by
  cases s with
  | nil => rfl
  | cons c r =>
      cases hc : isMark p c with
      | true => rw [numberMarksFrom_mark hc]; rfl
      | false => rw [numberMarksFrom_other hc]; rfl

/-- A run at the end of a text can be dropped before or after the text is numbered. -/
theorem numberMarksFrom_dropEndWhile {q : Char → Bool} (hq : IsApart q) (p : Position)
    (n : Nat) (s : List Char) :
    numberMarksFrom p n (Text.dropEndWhile q s) =
      Text.dropEndWhile q (numberMarksFrom p n s) := by
  induction s generalizing p n with
  | nil => rfl
  | cons c r ih =>
      rw [Text.dropEndWhile_cons]
      cases hc : isMark p c with
      | true =>
          have hnumber : ∀ d ∈ '$' :: Text.decimal (n + 1), q d = false := by
            intro d hd
            rcases List.mem_cons.mp hd with rfl | hd
            · exact hq.dollar
            · exact hq.digit d (Text.isDigit_of_mem_decimal hd)
          rw [(eq_of_isMark hc).1, hq.question, Bool.and_false, if_neg Bool.false_ne_true,
            ← (eq_of_isMark hc).1, numberMarksFrom_mark hc, numberMarksFrom_mark hc, ih]
          exact (Text.dropEndWhile_append hnumber _).symm
      | false =>
          rw [numberMarksFrom_other hc, Text.dropEndWhile_cons, ← ih, isEmpty_numberMarksFrom]
          split
          · rfl
          · exact numberMarksFrom_other hc n _

/-- No mark is in a run at the end of a text. -/
theorem marksIn_dropEndWhile {q : Char → Bool} (hq : IsApart q) (p : Position)
    (s : List Char) : marksIn p (Text.dropEndWhile q s) = marksIn p s := by
  obtain ⟨run, hrun, hmem⟩ := Text.exists_dropEndWhile_append q s
  have hnone : '?' ∉ run := fun h => absurd (hmem '?' h) (by simp [hq.question])
  conv_rhs => rw [← hrun, marksIn_append, marksIn_of_notMem hnone, Nat.add_zero]

/-! ### Reading numbered marks -/

/-- Whether a character begins a numbered mark at a position. -/
def isNumber (p : Position) (c : Char) : Bool := c = '$' && !p.isQuoted c

/-- The digits of each numbered mark, from left to right, in a text that starts at a
position: a mark is a dollar sign outside quotes with all the digits behind it. -/
def numbersFrom (p : Position) : List Char → List (List Char)
  | [] => []
  | c :: r =>
      if isNumber p c then r.takeWhile Char.isDigit :: numbersFrom (p.next c) r
      else numbersFrom (p.next c) r

/-- The text with a question mark for each numbered mark. The digits at its start are left
out when they belong to a mark in front of it. -/
def unnumberFrom (p : Position) (behindMark : Bool) : List Char → List Char
  | [] => []
  | c :: r =>
      if isNumber p c then '?' :: unnumberFrom (p.next c) true r
      else if behindMark && c.isDigit then unnumberFrom (p.next c) true r
      else c :: unnumberFrom (p.next c) false r

/-- The digits of the numbered marks of a statement. -/
def numbers (statement : String) : List (List Char) := numbersFrom .start statement.toList

/-- The statement with `?` in place of every numbered mark. -/
def unnumber (statement : String) : String :=
  String.ofList (unnumberFrom .start false statement.toList)

theorem isNumber_eq_false_of_ne {c : Char} (h : c ≠ '$') (p : Position) :
    isNumber p c = false := by
  simp [isNumber, h]

theorem isNumber_dollar {p : Position} (hp : p.quote = none) : isNumber p '$' = true := by
  rw [isNumber, Position.isQuoted, hp]
  rfl

theorem next_dollar {p : Position} (hp : p.quote = none) : p.next '$' = p :=
  Position.next_eq_self hp (by decide) (by decide) (by decide)

theorem next_of_isDigit {p : Position} (hp : p.quote = none) {c : Char}
    (hc : c.isDigit = true) : p.next c = p := by
  have hne : ∀ d : Char, d.isDigit = false → c ≠ d := by
    rintro d hd rfl
    rw [hc] at hd
    cases hd
  have hquote : Position.isQuote c = false := by
    simp [Position.isQuote, hne '\'' (by decide), hne '"' (by decide)]
  exact Position.next_eq_self hp hquote (hne '(' (by decide)) (hne ')' (by decide))

/-- The numbers of a text stand behind those of a mark, whatever digits are between. -/
theorem numbersFrom_digits_append {p : Position} (hp : p.quote = none) {digits : List Char}
    (hdigits : ∀ c ∈ digits, c.isDigit = true) (r : List Char) :
    numbersFrom p (digits ++ r) = numbersFrom p r := by
  induction digits with
  | nil => rfl
  | cons c s ih =>
      obtain ⟨hc, hs⟩ := List.forall_mem_cons.mp hdigits
      have hdollar : c ≠ '$' := by
        rintro rfl
        exact absurd hc (by decide)
      rw [List.cons_append, numbersFrom, isNumber_eq_false_of_ne hdollar,
        if_neg Bool.false_ne_true, next_of_isDigit hp hc, ih hs]

/-- The digits of a mark are left out. -/
theorem unnumberFrom_digits_append {p : Position} (hp : p.quote = none) {digits : List Char}
    (hdigits : ∀ c ∈ digits, c.isDigit = true) (r : List Char) :
    unnumberFrom p true (digits ++ r) = unnumberFrom p true r := by
  induction digits with
  | nil => rfl
  | cons c s ih =>
      obtain ⟨hc, hs⟩ := List.forall_mem_cons.mp hdigits
      have hdollar : c ≠ '$' := by
        rintro rfl
        exact absurd hc (by decide)
      rw [List.cons_append, unnumberFrom, isNumber_eq_false_of_ne hdollar,
        if_neg Bool.false_ne_true, hc, Bool.and_self, if_pos rfl, next_of_isDigit hp hc, ih hs]

/-! ### Numbered marks, read back -/

/-- A text does not begin with a digit. -/
def StartsApart (s : List Char) : Prop := ∀ c ∈ s.head?, c.isDigit = false

instance (s : List Char) : Decidable (StartsApart s) :=
  Option.decidableForallMem s.head?

/-- A text in which no digit stands directly behind a question mark. -/
def IsSpaced (s : List Char) : Prop := s.IsChain fun c d => c = '?' → d.isDigit = false

/-- A numbered text begins as the text did, or with a dollar sign. -/
theorem StartsApart.numberMarksFrom {s : List Char} (h : StartsApart s) (p : Position)
    (n : Nat) : StartsApart (numberMarksFrom p n s) := by
  intro d hd
  cases s with
  | nil => cases hd
  | cons c r =>
      cases hc : isMark p c with
      | true =>
          rw [numberMarksFrom_mark hc] at hd
          cases hd
          decide
      | false =>
          rw [numberMarksFrom_other hc] at hd
          exact h d hd

/-- The digits of a number end where the text behind it begins. -/
theorem StartsApart.takeWhile_decimal_append {r : List Char} (h : StartsApart r) (n : Nat) :
    (Text.decimal n ++ r).takeWhile Char.isDigit = Text.decimal n := by
  rw [List.takeWhile_append_of_pos fun c => Text.isDigit_of_mem_decimal]
  cases r with
  | nil => exact List.append_nil _
  | cons c r => rw [List.takeWhile_cons_of_neg (by simp [h c rfl]), List.append_nil]

/-- Behind a mark, a text that begins with no digit is read as elsewhere. -/
theorem StartsApart.unnumberFrom_eq {s : List Char} (h : StartsApart s) (p : Position)
    (behindMark : Bool) : unnumberFrom p behindMark s = unnumberFrom p false s := by
  cases s with
  | nil => rfl
  | cons c r =>
      have hc : c.isDigit = false := h c rfl
      simp only [unnumberFrom, hc, Bool.and_false]

/-- **The marks of a numbered text are numbered one after the other**, each once, when the
text had no dollar sign and no digit directly behind a mark. -/
theorem numbersFrom_numberMarksFrom {s : List Char} (hdollar : '$' ∉ s) (hspaced : IsSpaced s)
    (p : Position) (n : Nat) :
    numbersFrom p (numberMarksFrom p n s) =
      (List.range' (n + 1) (marksIn p s)).map Text.decimal := by
  induction s generalizing p n with
  | nil => rfl
  | cons c r ih =>
      obtain ⟨hc, hr⟩ := not_or.mp (mt List.mem_cons.mpr hdollar)
      obtain ⟨hbehind, hrest⟩ := List.isChain_cons.mp hspaced
      rw [marksIn]
      cases hmark : isMark p c with
      | true =>
          obtain ⟨rfl, hp⟩ := eq_of_isMark hmark
          have hstarts : StartsApart r := fun d hd => hbehind d hd rfl
          rw [numberMarksFrom_mark hmark, next_of_isMark hmark, numbersFrom,
            if_pos (isNumber_dollar hp), next_dollar hp,
            (hstarts.numberMarksFrom p (n + 1)).takeWhile_decimal_append,
            numbersFrom_digits_append hp fun d => Text.isDigit_of_mem_decimal, ih hr hrest,
            if_pos rfl, Nat.add_comm 1, List.range'_succ, List.map_cons]
      | false =>
          rw [numberMarksFrom_other hmark, numbersFrom, isNumber_eq_false_of_ne (Ne.symm hc),
            if_neg Bool.false_ne_true, ih hr hrest, if_neg Bool.false_ne_true, Nat.zero_add]

/-- **Numbering is undone**, when the text had no dollar sign and no digit directly behind a
mark. -/
theorem unnumberFrom_numberMarksFrom {s : List Char} (hdollar : '$' ∉ s)
    (hspaced : IsSpaced s) (p : Position) (n : Nat) :
    unnumberFrom p false (numberMarksFrom p n s) = s := by
  induction s generalizing p n with
  | nil => rfl
  | cons c r ih =>
      obtain ⟨hc, hr⟩ := not_or.mp (mt List.mem_cons.mpr hdollar)
      obtain ⟨hbehind, hrest⟩ := List.isChain_cons.mp hspaced
      cases hmark : isMark p c with
      | true =>
          obtain ⟨rfl, hp⟩ := eq_of_isMark hmark
          have hstarts : StartsApart r := fun d hd => hbehind d hd rfl
          rw [numberMarksFrom_mark hmark, next_of_isMark hmark, unnumberFrom,
            if_pos (isNumber_dollar hp), next_dollar hp,
            unnumberFrom_digits_append hp fun d => Text.isDigit_of_mem_decimal,
            (hstarts.numberMarksFrom p (n + 1)).unnumberFrom_eq, ih hr hrest]
      | false =>
          rw [numberMarksFrom_other hmark, unnumberFrom, isNumber_eq_false_of_ne (Ne.symm hc),
            if_neg Bool.false_ne_true, Bool.false_and, if_neg Bool.false_ne_true, ih hr hrest]

/-! ### Pages of numbered statements -/

theorem isApart_semicolon : IsApart (· == ';') where
  question := by decide
  dollar := by decide
  digit c hc := by
    rw [beq_eq_false_iff_ne]
    rintro rfl
    exact absurd hc (by decide)

theorem isApart_isBlank : IsApart Text.isBlank where
  question := by decide
  dollar := by decide
  digit c hc := by
    have hrange : 0x30 ≤ c.toNat ∧ c.toNat ≤ 0x39 := by
      simpa [Char.isDigit, UInt32.le_iff_toNat_le] using hc
    simp only [Text.isBlank, Bool.or_eq_false_iff, Bool.and_eq_false_iff, beq_eq_false_iff_ne,
      decide_eq_false_iff_not]
    omega

/-- Numbering a statement without its terminator. -/
theorem numberMarks_body (s : String) :
    numberMarks (Page.body s) = Page.body (numberMarks s) := by
  simp only [Page.body, numberMarks, String.toList_ofList, Text.dropEndBlanks,
    numberMarksFrom_dropEndWhile isApart_isBlank, numberMarksFrom_dropEndWhile isApart_semicolon]

theorem marksIn_body (p : Position) (s : String) :
    marksIn p (Page.body s).toList = marksIn p s.toList := by
  simp only [Page.body, String.toList_ofList, Text.dropEndBlanks,
    marksIn_dropEndWhile isApart_isBlank, marksIn_dropEndWhile isApart_semicolon]

/-- A statement without its terminator is a beginning of the statement. -/
theorem prefix_body (s : String) : (Page.body s).toList <+: s.toList := by
  have hdrop (q : Char → Bool) (t : List Char) : Text.dropEndWhile q t <+: t :=
    (Text.exists_dropEndWhile_append q t).imp fun run h => h.1
  rw [Page.body, String.toList_ofList]
  exact (hdrop _ _).trans ((hdrop _ _).trans (hdrop _ _))

theorem paginate_some (p : Page) (s : String) :
    Page.paginate .postgreSql (some p) s =
      Page.body s ++ Dialect.postgreSql.pageClause p.offset p.size.toNat := by
  have horder : Dialect.postgreSql.addedOrder (Page.body s) = "" := rfl
  rw [Page.paginate, Dialect.paginate, horder, String.append_empty]

/-- The page clause has neither question marks nor dollar signs. -/
theorem notMem_pageClause {d : Char} (hdigit : d.isDigit = false)
    (hword : d ∉ " LIMIT  OFFSET ".toList) (offset limit : Nat) :
    d ∉ (Dialect.postgreSql.pageClause offset limit).toList := by
  have hwords : d ∉ " LIMIT ".toList ∧ d ∉ " OFFSET ".toList := by
    constructor <;> exact fun h => hword (by revert h; simp; tauto)
  simp only [Dialect.pageClause, Dialect.number, String.toList_append, String.toList_ofList,
    List.mem_append, Text.notMem_decimal hdigit, hwords.1, hwords.2, or_self, not_false_eq_true]

/-- **Numbering and paging commute.** -/
theorem bindMarks_paginate (page : Option Page) (s : String) :
    Dialect.postgreSql.bindMarks (Page.paginate .postgreSql page s) =
      Page.paginate .postgreSql page (Dialect.postgreSql.bindMarks s) := by
  cases page with
  | none => rfl
  | some p =>
      have hclause : '?' ∉ (Dialect.postgreSql.pageClause p.offset p.size.toNat).toList :=
        notMem_pageClause (by decide) (by decide) _ _
      rw [paginate_some, paginate_some, Dialect.bindMarks, Dialect.bindMarks, ← numberMarks_body]
      simp only [numberMarks, String.toList_append, numberMarksFrom_append,
        numberMarksFrom_of_notMem hclause, String.ofList_append, String.ofList_toList]

/-- Paging adds no mark and takes none away. -/
theorem marksIn_paginate (p : Position) (page : Option Page) (s : String) :
    marksIn p (Page.paginate .postgreSql page s).toList = marksIn p s.toList := by
  cases page with
  | none => rfl
  | some page =>
      have hclause : '?' ∉ (Dialect.postgreSql.pageClause page.offset page.size.toNat).toList :=
        notMem_pageClause (by decide) (by decide) _ _
      rw [paginate_some, String.toList_append, marksIn_append, marksIn_of_notMem hclause,
        marksIn_body, Nat.add_zero]

/-- A character that is in no page clause is in a page of a statement only if it is in the
statement. -/
theorem notMem_paginate {d : Char} (hdigit : d.isDigit = false)
    (hword : d ∉ " LIMIT  OFFSET ".toList) {s : String} (h : d ∉ s.toList)
    (page : Option Page) : d ∉ (Page.paginate .postgreSql page s).toList := by
  cases page with
  | none => exact h
  | some p =>
      rw [paginate_some, String.toList_append, List.mem_append]
      rintro (hmem | hmem)
      · exact h ((prefix_body s).subset hmem)
      · exact notMem_pageClause hdigit hword _ _ hmem

theorem IsSpaced.append {x y : List Char} (hx : IsSpaced x) (hy : IsSpaced y)
    (h : StartsApart y) : IsSpaced (x ++ y) :=
  List.IsChain.append hx hy fun _ _ d hd _ => h d hd

/-- Text without question marks may stand in front of any text. -/
theorem IsSpaced.append_of_notMem {x y : List Char} (hx : '?' ∉ x) (hy : IsSpaced y) :
    IsSpaced (x ++ y) := by
  induction x with
  | nil => exact hy
  | cons c r ih =>
      obtain ⟨hc, hr⟩ := not_or.mp (mt List.mem_cons.mpr hx)
      exact List.isChain_cons.mpr ⟨fun d _ heq => absurd heq.symm hc, ih hr⟩

theorem isSpaced_of_notMem {s : List Char} (h : '?' ∉ s) : IsSpaced s := by
  have hnil : IsSpaced [] := List.IsChain.nil
  simpa using hnil.append_of_notMem h

/-- The page clause begins with a blank, so no mark runs into its numbers. -/
theorem IsSpaced.paginate {s : String} (h : IsSpaced s.toList) (page : Option Page) :
    IsSpaced (Page.paginate .postgreSql page s).toList := by
  cases page with
  | none => exact h
  | some p =>
      have hclause : '?' ∉ (Dialect.postgreSql.pageClause p.offset p.size.toNat).toList :=
        notMem_pageClause (by decide) (by decide) _ _
      have hstarts :
          StartsApart (Dialect.postgreSql.pageClause p.offset p.size.toNat).toList := by
        have hfirst (x : List Char) : (" LIMIT ".toList ++ x).head? = some ' ' := by simp
        intro d hd
        simp only [Dialect.pageClause, String.toList_append, List.append_assoc, hfirst,
          Option.mem_some] at hd
        rw [← hd]
        decide
      have hbody : IsSpaced (Page.body s).toList := List.IsChain.prefix h (prefix_body s)
      rw [paginate_some, String.toList_append]
      exact hbody.append (isSpaced_of_notMem hclause) hstarts

/-- **The numbers of a numbered page** are those of its marks, and they give the page back. -/
theorem numbers_bindMarks {s : String} (hdollar : '$' ∉ s.toList) (hspaced : IsSpaced s.toList) :
    numbers (Dialect.postgreSql.bindMarks s) =
        (List.range' 1 (marksIn .start s.toList)).map Text.decimal ∧
      unnumber (Dialect.postgreSql.bindMarks s) = s := by
  rw [Dialect.bindMarks, numbers, unnumber, numberMarks, String.toList_ofList,
    numbersFrom_numberMarksFrom hdollar hspaced, unnumberFrom_numberMarksFrom hdollar hspaced,
    String.ofList_toList]
  exact ⟨rfl, rfl⟩

end Statement

end RealmDirectory
