import Mathlib.Data.List.Basic
import RealmDirectory.Proofs.Query.Terminator

/-!
# Pages of a result

A page of a search is a statement with a clause behind it. The clause is text, and each
dialect writes the same two numbers in its own order, so its meaning is read here the way the
dialect reads it: the rows to skip, the rows to keep. The pages of a statement are then
consecutive parts of the rows of the statement, although the number of rows to skip is cut at
the largest number of 64 bits: a result that is shorter than that has no rows behind the cut.

## Main definitions

* `Dialect.readBounds?`: the rows that a page clause skips and keeps, as the dialect reads it.
* `Page.rows?`: the rows that the statement for a page selects.
* `Page.rowsBefore?`: the rows of the first pages, one page behind the other.

## Main results

* `Dialect.readBounds?_pageClause`: every dialect reads its own clause.
* `Page.rows?_eq`: a page has the rows from its first place up to the next page.
* `Page.exists_unpaged_eq`: what stands in front of a page clause is the statement without its
  end, and the ordering that the dialect wants.
* `Page.rows_partition`: the pages have every row once, in order, and those behind the last
  row are empty.
-/

namespace RealmDirectory

open Statement

/-! ### Reading a page clause -/

/-- A part of a result: some rows are skipped, and some are kept. -/
structure Bounds where
  /-- The rows in front of the part. -/
  skipped : Nat
  /-- The rows of the part, when there are as many. -/
  kept : Nat
  deriving DecidableEq, Repr

/-- The part of a result within bounds. -/
def Bounds.select {α : Type} (b : Bounds) (rows : List α) : List α :=
  (rows.drop b.skipped).take b.kept

/-- The number at the start of a text, and the text behind its digits. -/
def readNumber? (s : List Char) : Option (Nat × List Char) :=
  let digits := s.takeWhile Char.isDigit
  if digits.isEmpty then none
  else some (Nat.ofDigitChars 10 digits 0, s.dropWhile Char.isDigit)

/-- The two numbers of a clause that is made of them and of the words in front of the first,
between them and behind the second. -/
def readNumbers? (before between behind : String) (clause : List Char) :
    Option (Nat × Nat) := do
  let s ← clause.dropPrefix? before.toList
  let (m, s) ← readNumber? s
  let s ← s.dropPrefix? between.toList
  let (n, s) ← readNumber? s
  if s = behind.toList then some (m, n) else none

/-- The bounds that a dialect reads in a page clause. -/
def Dialect.readBounds? (d : Dialect) (clause : List Char) : Option Bounds :=
  match d with
  | postgreSql | sqlite =>
      (readNumbers? " LIMIT " " OFFSET " "" clause).map fun (kept, skipped) => ⟨skipped, kept⟩
  | mySql => (readNumbers? " LIMIT " ", " "" clause).map fun (skipped, kept) => ⟨skipped, kept⟩
  | oracle | db2 | sqlServer =>
      (readNumbers? " OFFSET " " ROWS FETCH NEXT " " ROWS ONLY" clause).map
        fun (skipped, kept) => ⟨skipped, kept⟩

/-- A number is read up to the first character that is no digit. -/
theorem readNumber?_decimal_append {r : List Char} (h : StartsApart r) (n : Nat) :
    readNumber? (Text.decimal n ++ r) = some (n, r) := by
  have htake : (Text.decimal n ++ r).takeWhile Char.isDigit = Text.decimal n :=
    h.takeWhile_decimal_append n
  have hdrop : (Text.decimal n ++ r).dropWhile Char.isDigit = r := by
    have hsplit := List.takeWhile_append_dropWhile (p := Char.isDigit) (l := Text.decimal n ++ r)
    rw [htake] at hsplit
    exact List.append_cancel_left hsplit
  have hvalue : Nat.ofDigitChars 10 (Text.decimal n) 0 = n := Nat.ofDigitChars_ten_toDigits
  rw [readNumber?, htake, hdrop, hvalue, if_neg]
  simpa using Text.decimal_ne_nil n

/-- Two numbers with words around them are read, when no word runs into a number. -/
theorem readNumbers?_eq {before between behind : String} (hbetween : StartsApart between.toList)
    (hbehind : StartsApart behind.toList) (hne : between ≠ "") (m n : Nat) :
    readNumbers? before between behind
        (before ++ Dialect.number m ++ between ++ Dialect.number n ++ behind).toList =
      some (m, n) := by
  have hprefix (x r : List Char) : (x ++ r).dropPrefix? x = some r :=
    List.dropPrefix?_append_of_beq r (beq_self_eq_true x)
  have hrest : StartsApart (between.toList ++ (Text.decimal n ++ behind.toList)) := by
    intro c hc
    rw [List.head?_append_of_ne_nil _ (by simpa using hne)] at hc
    exact hbetween c hc
  simp only [Dialect.number, String.toList_append, String.toList_ofList, List.append_assoc,
    readNumbers?, hprefix, readNumber?_decimal_append hrest, readNumber?_decimal_append hbehind,
    Option.bind_eq_bind, Option.bind_some, if_true]

/-- **Every dialect reads its own clause.** -/
theorem Dialect.readBounds?_pageClause (d : Dialect) (offset limit : Nat) :
    d.readBounds? (d.pageClause offset limit).toList = some ⟨offset, limit⟩ := by
  have hlimit : readNumbers? " LIMIT " " OFFSET " ""
      (" LIMIT " ++ number limit ++ " OFFSET " ++ number offset ++ "").toList =
        some (limit, offset) :=
    readNumbers?_eq (by decide) (by decide) (by decide) limit offset
  have hcomma : readNumbers? " LIMIT " ", " ""
      (" LIMIT " ++ number offset ++ ", " ++ number limit ++ "").toList =
        some (offset, limit) :=
    readNumbers?_eq (by decide) (by decide) (by decide) offset limit
  have hfetch : readNumbers? " OFFSET " " ROWS FETCH NEXT " " ROWS ONLY"
      (" OFFSET " ++ number offset ++ " ROWS FETCH NEXT " ++ number limit ++ " ROWS ONLY").toList =
        some (offset, limit) :=
    readNumbers?_eq (by decide) (by decide) (by decide) offset limit
  rw [String.append_empty] at hlimit hcomma
  cases d <;> simp only [readBounds?, pageClause, hlimit, hcomma, hfetch, Option.map_some]

/-! ### The rows of a page -/

namespace Page

variable {α : Type}

/-- The statement for all the rows that a page is cut from. -/
def unpaged (d : Dialect) (statement : String) : String :=
  body statement ++ d.addedOrder (body statement)

/-- **What stands in front of a page clause**: the statement without blanks and terminators at its
end, and the ordering that the dialect adds to it. Terminators are lost when there are any at the
end, and no blank is left there. -/
theorem exists_unpaged_eq (d : Dialect) (statement : String) :
    ∃ base tail, statement.toList = base.toList ++ tail ∧
      (∀ c ∈ tail, Text.isBlank c = true ∨ c = ';') ∧
      ((∀ c ∈ tail, Text.isBlank c = true) ↔ ¬ IsTerminated statement) ∧
      (∀ c ∈ base.toList.getLast?, Text.isBlank c = false) ∧
      unpaged d statement = base ++ d.addedOrder base := by
  obtain ⟨tail, hsplit, htail, hterminated⟩ := exists_body_append statement
  refine ⟨body statement, tail, hsplit, htail, hterminated, ?_, rfl⟩
  rw [body, String.toList_ofList]
  exact Text.eq_false_of_mem_getLast?_dropEndWhile

/-- The rows that the statement for a page selects, when `rows` are those of the statement:
the clause behind the statement is read by the dialect. -/
def rows? (d : Dialect) (statement : String) (p : Page) (rows : List α) : Option (List α) := do
  let clause ← (paginate d (some p) statement).toList.dropPrefix? (unpaged d statement).toList
  let bounds ← d.readBounds? clause
  return bounds.select rows

/-- The rows of the first `n` pages, one page behind the other. -/
def rowsBefore? (d : Dialect) (statement : String) (size : UInt64) (rows : List α) :
    Nat → Option (List α)
  | 0 => some []
  | n + 1 => do
      let before ← rowsBefore? d statement size rows n
      let next ← rows? d statement ⟨UInt64.ofNat n, size⟩ rows
      return before ++ next

/-- The number of pages that have rows. -/
def count (size : UInt64) (rows : List α) : Nat :=
  (rows.length + size.toNat - 1) / size.toNat

/-- A statement for a page is the statement for all the rows with a clause behind it. -/
theorem rows?_eq_select (d : Dialect) (statement : String) (p : Page) (rows : List α) :
    rows? d statement p rows = some (Bounds.select ⟨p.offset, p.size.toNat⟩ rows) := by
  have hclause : (paginate d (some p) statement).toList.dropPrefix? (unpaged d statement).toList =
      some (d.pageClause p.offset p.size.toNat).toList := by
    rw [paginate, Dialect.paginate, String.toList_append]
    exact List.dropPrefix?_append_of_beq _ (beq_self_eq_true _)
  rw [rows?, hclause]
  simp only [Option.bind_eq_bind, Option.bind_some, d.readBounds?_pageClause]
  rfl

/-- **A page has the rows from its first place up to the next page**, also where the number of
rows to skip is cut: no row is behind the cut. -/
theorem rows?_eq (d : Dialect) (statement : String) (p : Page) {rows : List α}
    (h : rows.length < 2 ^ 64) :
    rows? d statement p rows =
      some (rows.extract (p.index.toNat * p.size.toNat)
        (p.index.toNat * p.size.toNat + p.size.toNat)) := by
  have hskip : rows.drop p.offset = rows.drop (p.index.toNat * p.size.toNat) := by
    rw [offset]
    obtain hcut | hle := Nat.lt_or_ge Text.maxWord64 (p.index.toNat * p.size.toNat)
    · have hmax : rows.length ≤ Text.maxWord64 := by
        unfold Text.maxWord64
        omega
      rw [Nat.min_eq_right (Nat.le_of_lt hcut), List.drop_eq_nil_of_le hmax,
        List.drop_eq_nil_of_le (by omega)]
    · rw [Nat.min_eq_left hle]
  rw [rows?_eq_select, Bounds.select, hskip, List.extract_eq_take_drop, Nat.add_sub_cancel_left]

/-- The first pages have the first rows. -/
theorem rowsBefore?_eq (d : Dialect) (statement : String) (size : UInt64) {rows : List α}
    (h : rows.length < 2 ^ 64) {n : Nat} (hn : n ≤ 2 ^ 64) :
    rowsBefore? d statement size rows n = some (rows.take (n * size.toNat)) := by
  induction n with
  | zero => simp [rowsBefore?]
  | succ n ih =>
      have hindex : (UInt64.ofNat n).toNat = n := UInt64.toNat_ofNat_of_lt' hn
      rw [rowsBefore?, ih (by omega), rows?_eq d statement _ h]
      simp only [Option.bind_eq_bind, Option.bind_some, hindex, List.extract_eq_take_drop,
        Nat.add_sub_cancel_left, Nat.succ_mul, List.take_add]
      rfl

/-- The pages that have rows have all of them. -/
theorem length_le_count_mul {size : UInt64} (hsize : 0 < size.toNat) (rows : List α) :
    rows.length ≤ count size rows * size.toNat := by
  have hdiv := Nat.div_add_mod (rows.length + size.toNat - 1) size.toNat
  have hmod := Nat.mod_lt (rows.length + size.toNat - 1) hsize
  rw [count, Nat.mul_comm]
  omega

/-- A result has no more pages than rows. -/
theorem count_le_length {size : UInt64} (hsize : 0 < size.toNat) (rows : List α) :
    count size rows ≤ rows.length := by
  have hmul : rows.length ≤ size.toNat * rows.length := Nat.le_mul_of_pos_left _ hsize
  have hlt : rows.length + size.toNat - 1 < size.toNat * (rows.length + 1) := by
    rw [Nat.mul_succ]
    omega
  exact Nat.lt_succ_iff.mp (Nat.div_lt_of_lt_mul hlt)

/-- **The pages of a statement are consecutive parts of its rows.** For every index of 64 bits
a page has the rows from its first place up to the next page. Pages of at least one row,
behind each other, have every row once and in order, and each page behind them is empty; a
page of no rows selects nothing. The clause of a page stands behind the statement itself, without
the blanks and terminators at its end and with the ordering that the dialect adds to it. -/
theorem rows_partition (d : Dialect) (statement : String) (size : UInt64) {rows : List α}
    (h : rows.length < 2 ^ 64) :
    (∀ i : UInt64, rows? d statement ⟨i, size⟩ rows =
        some (rows.extract (i.toNat * size.toNat) (i.toNat * size.toNat + size.toNat))) ∧
      (0 < size.toNat →
        rowsBefore? d statement size rows (count size rows) = some rows ∧
          ∀ i : UInt64, count size rows ≤ i.toNat →
            rows? d statement ⟨i, size⟩ rows = some []) ∧
      (size.toNat = 0 → ∀ i : UInt64, rows? d statement ⟨i, size⟩ rows = some []) ∧
      ∃ base tail, statement.toList = base.toList ++ tail ∧
        (∀ c ∈ tail, Text.isBlank c = true ∨ c = ';') ∧
        ((∀ c ∈ tail, Text.isBlank c = true) ↔ ¬ IsTerminated statement) ∧
        (∀ c ∈ base.toList.getLast?, Text.isBlank c = false) ∧
        unpaged d statement = base ++ d.addedOrder base := by
  have hpage (i : UInt64) : rows? d statement ⟨i, size⟩ rows =
      some (rows.extract (i.toNat * size.toNat) (i.toNat * size.toNat + size.toNat)) :=
    rows?_eq d statement ⟨i, size⟩ h
  refine ⟨hpage, fun hsize => ⟨?_, fun i hi => ?_⟩, fun hzero i => ?_,
    exists_unpaged_eq d statement⟩
  · have hcount : count size rows ≤ 2 ^ 64 :=
      (count_le_length hsize rows).trans (Nat.le_of_lt h)
    rw [rowsBefore?_eq d statement size h hcount,
      List.take_of_length_le (length_le_count_mul hsize rows)]
  · have hbehind : rows.length ≤ i.toNat * size.toNat :=
      (length_le_count_mul hsize rows).trans (Nat.mul_le_mul_right _ hi)
    rw [hpage, List.extract_eq_take_drop, List.drop_eq_nil_of_le hbehind, List.take_nil]
  · rw [hpage, List.extract_eq_take_drop, hzero, Nat.add_sub_cancel_left, List.take_zero]

/-- Two pages of two rows have three rows, and the last page that can be asked for, of which
the place does not fit into 64 bits, is empty. -/
theorem rows_partition_three_rows :
    [1, 2, 3].length < 2 ^ 64 ∧ 0 < (2 : UInt64).toNat ∧
      rowsBefore? .mySql "select id from users order by id;" 2 [1, 2, 3] 2 = some [1, 2, 3] ∧
      rows? .mySql "select id from users order by id;" ⟨18446744073709551615, 2⟩ [1, 2, 3] =
        some [] := by
  have hlength : [1, 2, 3].length < 2 ^ 64 := by decide
  have hsize : 0 < (2 : UInt64).toNat := by decide
  obtain ⟨-, hpages, -⟩ := rows_partition .mySql "select id from users order by id;" 2 hlength
  obtain ⟨hall, hempty⟩ := hpages hsize
  exact ⟨hlength, hsize, hall, hempty 18446744073709551615 (by decide)⟩

end Page

end RealmDirectory
