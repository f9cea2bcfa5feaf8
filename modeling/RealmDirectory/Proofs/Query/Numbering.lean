import RealmDirectory.Proofs.Query.Filling
import RealmDirectory.Proofs.Query.Marks

/-!
# Numbered searches

Three rewriters work one after the other on the text of a search: its filter is written into
the template, the page clause takes the place of the terminator, and the marks are numbered.
The parameters are a list apart. This module shows that the numbers and the parameters stay
aligned, also when columns are quoted names: the clause with number `k` compares the `k`-th
bound column, and the `k`-th parameter is made of the value bound to that column.

The invariant is that no quote is open at the boundary of a clause. It holds because columns
close the quotes that they open, and the literal behind `ESCAPE` closes its own.

## Main definitions

* `Statement.IsPiece`: texts that keep the invariant.
* `Criteria.Binds`: the values that a search binds to a column.
* `Selection.numbered`: the filter with numbered marks.

## Main results

* `isPiece_condition`: a filter keeps the invariant.
* `numberMarksFrom_condition`: the numbering of a filter.
* `CompiledQuery.bindMarks_paginate_compile`: the numbers of a search and its parameters.
-/

namespace RealmDirectory

/-! ### Pieces of statements -/

namespace Statement

/-- A piece of a statement that begins and ends with no quote open, has its marks outside
quotes and a character behind each of them. -/
structure IsPiece (s : List Char) : Prop where
  balanced : IsBalanced s
  unquoted : ∀ p : Position, p.quote = none → marksIn p s = s.count '?'
  spaced : ∀ r, IsSpaced r → IsSpaced (s ++ r)
  noDollar : '$' ∉ s

namespace IsPiece

theorem append {x y : List Char} (hx : IsPiece x) (hy : IsPiece y) : IsPiece (x ++ y) where
  balanced := hx.balanced.append hy.balanced
  unquoted p hp := by
    rw [marksIn_append, hx.unquoted p hp, hy.unquoted _ (hx.balanced.quote_after hp),
      List.count_append]
  spaced r hr := by
    rw [List.append_assoc]
    exact hx.spaced _ (hy.spaced r hr)
  noDollar h := (List.mem_append.mp h).elim hx.noDollar hy.noDollar

/-- Text without marks is a piece when it closes its quotes. -/
theorem of_notMem {s : List Char} (hquestion : '?' ∉ s) (hdollar : '$' ∉ s)
    (hbalanced : IsBalanced s) : IsPiece s where
  balanced := hbalanced
  unquoted p _ := (marksIn_of_notMem hquestion p).trans (List.count_eq_zero.mpr hquestion).symm
  spaced _ hr := hr.append_of_notMem hquestion
  noDollar := hdollar

/-- A mark and a blank. -/
theorem mark : IsPiece ['?', ' '] where
  balanced := by decide
  unquoted p hp := by simp [marksIn, isMark_question hp, isMark_eq_false_of_ne]
  spaced r hr := by
    refine List.isChain_cons_cons.mpr ⟨fun _ => by decide, ?_⟩
    exact IsSpaced.append_of_notMem (x := [' ']) (by decide) hr
  noDollar := by decide

end IsPiece

/-- The one mark of a text takes the next number. -/
theorem numberMarksFrom_around {p : Position} (hp : p.quote = none) {x y : List Char}
    (hx : '?' ∉ x) (hbalanced : IsBalanced x) (hy : '?' ∉ y) (n : Nat) :
    numberMarksFrom p n (x ++ '?' :: y) = x ++ '$' :: (Text.decimal (n + 1) ++ y) := by
  have hmark : isMark (p.after x) '?' = true := isMark_question (hbalanced.quote_after hp)
  rw [numberMarksFrom_append, numberMarksFrom_of_notMem hx, marksIn_of_notMem hx,
    numberMarksFrom_mark hmark, numberMarksFrom_of_notMem hy, Nat.add_zero]

end Statement

/-! ### Numbered filters -/

/-- Columns that close every quote that they open. -/
def ColumnMapping.ClosesQuotes (m : ColumnMapping) : Prop :=
  ∀ name column, m.column name = some column → Statement.IsBalanced column.toList

instance (m : ColumnMapping) : Decidable m.ClosesQuotes :=
  decidable_of_iff (∀ e ∈ m.entries, Statement.IsBalanced e.2.toList) (by
    simp only [ColumnMapping.ClosesQuotes, ColumnMapping.column, KeyedList.get?_eq_some_iff,
      Prod.forall])

namespace Selection

/-- The columns of a selection with the values bound to them. -/
def bindings : Selection → Bindings
  | matching _ bound => bound
  | _ => []

/-- A comparison of a column with the value of the mark with number `k`. -/
def numberedComparison (exact : Bool) (column : String) (k : Nat) : String :=
  if exact then " UPPER(" ++ column ++ ") = $" ++ Dialect.number k ++ "  "
  else " UPPER(" ++ column ++ ") LIKE $" ++ Dialect.number k ++ " ESCAPE '!' "

/-- The filter with numbered marks: one comparison for each bound column, in their order,
numbered from `first` up. -/
def numbered (exact : Bool) (first : Nat) : Selection → String
  | everyone => "1=1"
  | nobody => "1=0"
  | matching combination bound =>
      Text.join combination.word
        ((bound.zipIdx first).map fun e => numberedComparison exact e.1.1 e.2)

theorem numbered_singleton (word : Combination) (exact : Bool) (first : Nat)
    (e : String × String) :
    (matching word [e]).numbered exact first = numberedComparison exact e.1 first :=
  String.intercalate_singleton (s := word.word)

theorem numbered_cons (word : Combination) (exact : Bool) (first : Nat)
    (e d : String × String) (l : Bindings) :
    (matching word (e :: d :: l)).numbered exact first =
      numberedComparison exact e.1 first ++ word.word ++
        (matching word (d :: l)).numbered exact (first + 1) :=
  String.intercalate_cons_cons

/-- The operator of a comparison, with the bracket that closes the column. -/
def operator (exact : Bool) : String := if exact then ") = " else ") LIKE "

/-- The text of a comparison behind the blank that follows its mark. -/
def ending (exact : Bool) : String := if exact then " " else "ESCAPE '!' "

/-- The text of a comparison in front of its mark. -/
def opening (exact : Bool) (column : String) : String := " UPPER(" ++ column ++ operator exact

theorem toList_comparison (exact : Bool) (column : String) :
    (comparison exact column).toList =
      (opening exact column).toList ++ ['?', ' '] ++ (ending exact).toList := by
  have hbehind : (if exact then ") = ?  " else ") LIKE ? ESCAPE '!' ").toList =
      (operator exact).toList ++ ['?', ' '] ++ (ending exact).toList := by
    cases exact <;> simp [operator, ending]
  have htext : comparison exact column =
      " UPPER(" ++ column ++ if exact then ") = ?  " else ") LIKE ? ESCAPE '!' " := by
    cases exact <;> rfl
  rw [htext, String.toList_append, String.toList_append, hbehind]
  simp only [opening, String.toList_append, List.append_assoc]

theorem toList_numberedComparison (exact : Bool) (column : String) (k : Nat) :
    (numberedComparison exact column k).toList =
      (opening exact column).toList ++ '$' :: (Text.decimal k ++ ' ' :: (ending exact).toList) := by
  have hfront : (if exact then ") = $" else ") LIKE $").toList =
      (operator exact).toList ++ ['$'] := by
    cases exact <;> simp [operator]
  have hbehind : (if exact then "  " else " ESCAPE '!' ").toList =
      ' ' :: (ending exact).toList := by
    cases exact <;> simp [ending]
  have hnumber : (Dialect.number k).toList = Text.decimal k := String.toList_ofList
  have htext : numberedComparison exact column k =
      " UPPER(" ++ column ++ (if exact then ") = $" else ") LIKE $") ++ Dialect.number k ++
        if exact then "  " else " ESCAPE '!' " := by
    cases exact <;> rfl
  rw [htext, String.toList_append, String.toList_append, String.toList_append,
    String.toList_append, hfront, hbehind, hnumber]
  simp only [opening, String.toList_append, List.append_assoc, List.cons_append,
    List.nil_append]

/-- The text in front of a mark holds no mark of either kind that its column does not hold. -/
theorem notMem_opening {x : Char} (hx : x ∈ ['?', '$']) {column : String}
    (h : x ∉ column.toList) (exact : Bool) : x ∉ (opening exact column).toList := by
  have hwords : x ∉ " UPPER(".toList ∧ x ∉ (operator exact).toList := by
    rcases List.mem_cons.mp hx with rfl | hx
    · cases exact <;> exact ⟨by decide, by decide⟩
    · obtain rfl := List.mem_singleton.mp hx
      cases exact <;> exact ⟨by decide, by decide⟩
  obtain ⟨hfront, hback⟩ := hwords
  rw [opening, String.toList_append, String.toList_append]
  exact List.not_mem_append (List.not_mem_append hfront h) hback

/-- A comparison of a column without marks has one mark. -/
theorem count_comparison {column : String} (h : '?' ∉ column.toList) (exact : Bool) :
    (comparison exact column).toList.count '?' = 1 := by
  have hopening : (opening exact column).toList.count '?' = 0 :=
    List.count_eq_zero.mpr (notMem_opening (by decide) h exact)
  have hending : (ending exact).toList.count '?' = 0 := by cases exact <;> decide
  rw [toList_comparison, List.count_append, List.count_append, hopening, hending]
  rfl

/-- A column whose comparison is a piece of a statement. -/
structure IsColumn (column : String) : Prop where
  noQuestion : '?' ∉ column.toList
  noDollar : '$' ∉ column.toList
  balanced : Statement.IsBalanced column.toList

section

variable {column : String} (h : IsColumn column) (exact : Bool)

include h

theorem IsColumn.notMem_opening :
    '?' ∉ (opening exact column).toList ∧ '$' ∉ (opening exact column).toList :=
  ⟨Selection.notMem_opening (by decide) h.noQuestion exact,
    Selection.notMem_opening (by decide) h.noDollar exact⟩

theorem IsColumn.balanced_opening : Statement.IsBalanced (opening exact column).toList := by
  have hfront : Statement.IsBalanced " UPPER(".toList := by decide
  have hback : Statement.IsBalanced (operator exact).toList := by cases exact <;> decide
  rw [opening, String.toList_append, String.toList_append]
  exact (hfront.append h.balanced).append hback

/-- A comparison is a piece of a statement with one mark. -/
theorem IsColumn.isPiece_comparison : Statement.IsPiece (comparison exact column).toList := by
  have hopening : Statement.IsPiece (opening exact column).toList :=
    .of_notMem (h.notMem_opening exact).1 (h.notMem_opening exact).2 (h.balanced_opening exact)
  have hending : Statement.IsPiece (ending exact).toList := by
    cases exact <;> exact .of_notMem (by decide) (by decide) (by decide)
  rw [toList_comparison]
  exact (hopening.append .mark).append hending

/-- The mark of a comparison takes the next number. -/
theorem IsColumn.numberMarksFrom_comparison {p : Statement.Position} (hp : p.quote = none)
    (n : Nat) :
    Statement.numberMarksFrom p n (comparison exact column).toList =
      (numberedComparison exact column (n + 1)).toList := by
  have hending : '?' ∉ ' ' :: (ending exact).toList := by cases exact <;> decide
  rw [toList_comparison, toList_numberedComparison, List.append_assoc]
  exact Statement.numberMarksFrom_around hp (h.notMem_opening exact).1
    (h.balanced_opening exact) hending n

end

/-- The word between two comparisons is a piece of a statement. -/
theorem isPiece_word (word : Combination) : Statement.IsPiece word.word.toList := by
  cases word <;> exact .of_notMem (by decide) (by decide) (by decide)

theorem isPiece_everyone : Statement.IsPiece "1=1".toList :=
  .of_notMem (by decide) (by decide) (by decide)

theorem isPiece_nobody : Statement.IsPiece "1=0".toList :=
  .of_notMem (by decide) (by decide) (by decide)

theorem isPiece_empty : Statement.IsPiece "".toList :=
  .of_notMem (by decide) (by decide) (by decide)

/-- **A filter is a piece of a statement**: no quote is open at its ends. -/
theorem isPiece_condition {s : Selection} (h : ∀ d ∈ s.columns, IsColumn d) (exact : Bool) :
    Statement.IsPiece (s.condition exact).toList := by
  match s, h with
  | everyone, _ => exact isPiece_everyone
  | nobody, _ => exact isPiece_nobody
  | matching word [], _ => exact isPiece_empty
  | matching word (e :: l), h =>
      induction l generalizing e with
      | nil =>
          rw [condition_singleton]
          exact (h e.1 List.mem_cons_self).isPiece_comparison exact
      | cons d l ih =>
          have he : IsColumn e.1 := h e.1 List.mem_cons_self
          have hl := ih d fun b hb => h b (List.mem_cons_of_mem e.1 hb)
          rw [condition_cons, String.toList_append, String.toList_append]
          exact ((he.isPiece_comparison exact).append (isPiece_word word)).append hl

/-- **A filter has one mark for each bound column**, and nothing else that looks like one. -/
theorem count_condition {s : Selection} (h : ∀ d ∈ s.columns, '?' ∉ d.toList) (exact : Bool) :
    (s.condition exact).toList.count '?' = s.bindings.length := by
  match s, h with
  | everyone, _ => exact (by decide : "1=1".toList.count '?' = 0)
  | nobody, _ => exact (by decide : "1=0".toList.count '?' = 0)
  | matching word [], _ => exact (by decide : "".toList.count '?' = 0)
  | matching word (e :: l), h =>
      induction l generalizing e with
      | nil =>
          rw [condition_singleton]
          exact count_comparison (h e.1 List.mem_cons_self) exact
      | cons d l ih =>
          have he : '?' ∉ e.1.toList := h e.1 List.mem_cons_self
          have hl := ih d fun b hb => h b (List.mem_cons_of_mem e.1 hb)
          have hword : word.word.toList.count '?' = 0 := by cases word <;> decide
          rw [condition_cons, String.toList_append, String.toList_append, List.count_append,
            List.count_append, count_comparison he exact, hword, hl]
          exact Nat.add_comm _ _

/-- **A filter is numbered clause by clause**, from the number behind `n` up. -/
theorem numberMarksFrom_condition {s : Selection} (h : ∀ d ∈ s.columns, IsColumn d)
    (exact : Bool) {p : Statement.Position} (hp : p.quote = none) (n : Nat) :
    Statement.numberMarksFrom p n (s.condition exact).toList =
      (s.numbered exact (n + 1)).toList := by
  match s, h with
  | everyone, _ =>
      exact Statement.numberMarksFrom_of_notMem (by decide : '?' ∉ "1=1".toList) p n
  | nobody, _ =>
      exact Statement.numberMarksFrom_of_notMem (by decide : '?' ∉ "1=0".toList) p n
  | matching word [], _ =>
      exact Statement.numberMarksFrom_of_notMem (by decide : '?' ∉ "".toList) p n
  | matching word (e :: l), h =>
      induction l generalizing e p n with
      | nil =>
          rw [condition_singleton, numbered_singleton]
          exact (h e.1 List.mem_cons_self).numberMarksFrom_comparison exact hp n
      | cons d l ih =>
          have he : IsColumn e.1 := h e.1 List.mem_cons_self
          have hfront := (he.isPiece_comparison exact).append (isPiece_word word)
          have hword : '?' ∉ word.word.toList := by cases word <;> decide
          have hcount : ((comparison exact e.1).toList ++ word.word.toList).count '?' = 1 := by
            rw [List.count_append, count_comparison he.noQuestion exact,
              List.count_eq_zero.mpr hword]
          rw [condition_cons, numbered_cons, String.toList_append, String.toList_append,
            Statement.numberMarksFrom_append, hfront.unquoted p hp, hcount,
            Statement.numberMarksFrom_append, he.numberMarksFrom_comparison exact hp,
            Statement.numberMarksFrom_of_notMem hword, String.toList_append,
            String.toList_append,
            ih (hfront.balanced.quote_after hp) (n + 1) d fun b hb =>
              h b (List.mem_cons_of_mem e.1 hb)]

end Selection

/-! ### What a search binds -/

/-- A search binds a value to a column: some attribute that the column holds should have the
value, or the value is the keyword and the column holds an attribute in which keywords are
looked for. -/
def Criteria.Binds (m : ColumnMapping) (c : Criteria) (column value : String) : Prop :=
  (∃ name, c.Asks name value ∧ m.column name = some column) ∨
    c.SeeksKeyword value ∧ ∃ name ∈ Criteria.searchable, m.column name = some column

namespace Selection

variable {m : ColumnMapping} {c : Criteria}

theorem bindings_ofBound (combination : Combination) (b : Bindings) :
    (ofBound combination b).bindings = b := by
  cases b <;> rfl

/-- There is one parameter for each bound column, made of its value. -/
theorem getD_parameters (exact : Bool) (s : Selection) :
    (s.parameters exact).getD [] = s.bindings.map fun e => parameter exact e.2 := by
  cases s <;> rfl

/-- **The selection of a search binds what the search binds.** -/
theorem exists_bindings_of (m : ColumnMapping) (c : Criteria) :
    ∃ l : Bindings, (of m c).bindings = bindColumns l ∧
      ∀ column value, (column, value) ∈ l ↔ c.Binds m column value := by
  cases hm : m.isEmpty with
  | true =>
      refine ⟨[], by rw [of_isEmpty hm]; rfl, fun column value => ?_⟩
      simp [Criteria.Binds, ColumnMapping.column_eq_none hm]
  | false =>
      rcases c.asks_cases with h | ⟨keyword, h⟩ | h
      · refine ⟨attributeBindings m c, ?_, fun column value => ?_⟩
        · rw [of_attributes hm h, bindings_ofBound]
        · rw [mem_attributeBindings, Criteria.Binds, or_iff_left fun hk => hk.1.1 h]
      · refine ⟨keywordBindings m keyword, ?_, fun column value => ?_⟩
        · rw [of_keyword hm h, bindings_ofBound]
        · have hattr : ¬ ∃ name, c.Asks name value ∧ m.column name = some column :=
            fun ⟨name, hasks, _⟩ => h.1 ⟨name, value, hasks⟩
          have hvalue : c.SeeksKeyword value ↔ value = keyword :=
            ⟨fun hv => Option.some.inj (hv.2.1.symm.trans h.2.1), fun heq => heq ▸ h⟩
          rw [mem_keywordBindings, Criteria.Binds, or_iff_right hattr, hvalue]
      · refine ⟨[], by rw [of_seeksNothing h]; rfl, fun column value => ?_⟩
        have hattr : ¬ ∃ name, c.Asks name value ∧ m.column name = some column :=
          fun ⟨name, hasks, _⟩ => h.1 ⟨name, value, hasks⟩
        have hkey : ¬ c.SeeksKeyword value := fun hv => hv.2.2 (h.2 value hv.2.1)
        simp [Criteria.Binds, hattr, hkey]

/-- The bound columns stand in ascending order, none of them twice. -/
theorem ascending_bindings_of (m : ColumnMapping) (c : Criteria) :
    Bindings.Ascending (of m c).bindings := by
  obtain ⟨l, hl, -⟩ := exists_bindings_of m c
  rw [hl]
  exact Bindings.ascending_bindColumns l

theorem binds_of_mem_bindings {column value : String}
    (h : (column, value) ∈ (of m c).bindings) : c.Binds m column value := by
  obtain ⟨l, hl, hbinds⟩ := exists_bindings_of m c
  rw [hl] at h
  exact (hbinds column value).mp (Bindings.mem_of_mem_bindColumns h)

theorem mem_columns_iff {column : String} :
    column ∈ Bindings.columns (of m c).bindings ↔ ∃ value, c.Binds m column value := by
  obtain ⟨l, hl, hbinds⟩ := exists_bindings_of m c
  rw [hl, Bindings.mem_columns_bindColumns]
  simp only [Bindings.columns, List.mem_map, Prod.exists, exists_and_right, exists_eq_right,
    hbinds]

end Selection

namespace CompiledQuery

open Selection

section

variable {pre post : String} (hpre : '?' ∉ pre.toList ∧ '$' ∉ pre.toList)
  (hpost : '?' ∉ post.toList ∧ '$' ∉ post.toList) (hopen : Statement.IsBalanced pre.toList)
  {s : Selection} (hcolumns : ∀ d ∈ s.columns, IsColumn d) (exact : Bool)

include hpre hopen hcolumns

/-- A filter and a text in front of it, which closes its quotes and has no marks. -/
theorem isPiece_front : Statement.IsPiece (pre ++ s.condition exact).toList := by
  rw [String.toList_append]
  exact (Statement.IsPiece.of_notMem hpre.1 hpre.2 hopen).append (isPiece_condition hcolumns exact)

include hpost

/-- A filter between texts without marks is numbered in its place. -/
theorem numberMarks_around :
    Statement.numberMarks (pre ++ s.condition exact ++ post) =
      pre ++ s.numbered exact 1 ++ post := by
  have hstart : (Statement.Position.start.after pre.toList).quote = none := hopen
  rw [← String.toList_inj]
  simp only [Statement.numberMarks, String.toList_ofList, String.toList_append,
    Statement.numberMarksFrom_append, Statement.numberMarksFrom_of_notMem hpre.1,
    Statement.numberMarksFrom_of_notMem hpost.1, Statement.marksIn_of_notMem hpre.1,
    numberMarksFrom_condition hcolumns exact hstart]

/-- The question marks around a filter are its marks: one for each bound column, none of
them inside quotes. -/
theorem marksIn_around :
    Statement.marksIn .start (pre ++ s.condition exact ++ post).toList = s.bindings.length ∧
      (pre ++ s.condition exact ++ post).toList.count '?' = s.bindings.length := by
  have hfront : (pre ++ s.condition exact).toList.count '?' = s.bindings.length := by
    rw [String.toList_append, List.count_append, List.count_eq_zero.mpr hpre.1, Nat.zero_add,
      count_condition fun d hd => (hcolumns d hd).noQuestion]
  constructor
  · rw [String.toList_append, Statement.marksIn_append, Statement.marksIn_of_notMem hpost.1,
      (isPiece_front hpre hopen hcolumns exact).unquoted .start rfl, hfront, Nat.add_zero]
  · rw [String.toList_append, List.count_append, List.count_eq_zero.mpr hpost.1, hfront,
      Nat.add_zero]

/-- **A statement around a filter is read back from its numbers**, on every page. -/
theorem numbers_around (page : Option Page) :
    let paged := Page.paginate .postgreSql page (pre ++ s.condition exact ++ post)
    '?' ∉ (Dialect.postgreSql.bindMarks paged).toList ∧
      Statement.numbers (Dialect.postgreSql.bindMarks paged) =
        (List.range' 1 s.bindings.length).map Text.decimal ∧
      Statement.unnumber (Dialect.postgreSql.bindMarks paged) = paged := by
  intro paged
  have hmarks := marksIn_around hpre hpost hopen hcolumns exact
  have hfront := isPiece_front hpre hopen hcolumns exact
  have hdollar : '$' ∉ (pre ++ s.condition exact ++ post).toList := by
    rw [String.toList_append, List.mem_append]
    exact not_or.mpr ⟨hfront.noDollar, hpost.2⟩
  have hspaced : Statement.IsSpaced (pre ++ s.condition exact ++ post).toList := by
    rw [String.toList_append]
    exact hfront.spaced _ (Statement.isSpaced_of_notMem hpost.1)
  have hread := Statement.numbers_bindMarks
    (Statement.notMem_paginate (by decide) (by decide) hdollar page) (hspaced.paginate page)
  rw [Statement.marksIn_paginate, hmarks.1] at hread
  refine ⟨?_, hread⟩
  rw [Statement.bindMarks_paginate]
  refine Statement.notMem_paginate (by decide) (by decide) ?_ page
  rw [Dialect.bindMarks, Statement.numberMarks, String.toList_ofList]
  exact Statement.notMem_numberMarksFrom (hmarks.1.trans hmarks.2.symm) 0

end

/-- The columns of a search are columns of the directory, so their comparisons are pieces. -/
theorem isColumn_of_mem_columns {m : ColumnMapping} (hquestion : m.Avoids '?')
    (hdollar : m.Avoids '$') (hquotes : m.ClosesQuotes) (c : Criteria) :
    ∀ d ∈ (Selection.of m c).columns, IsColumn d := by
  intro d hd
  obtain ⟨name, hname⟩ := exists_column_of_mem_columns hd
  exact ⟨hquestion name d hname, hdollar name d hname, hquotes name d hname⟩

/-- **The numbers of a PostgreSQL search and its parameters are aligned.** A search is
compiled into plain texts without marks, the first of which leaves no quote open, by columns
that hold no mark and close their quotes. Then, on every page:

* no question mark is left, the marks are numbered from one up to the number of parameters,
  from left to right and each once, and without their numbers they are the page again;
* the bound columns are those that the search binds values to, in ascending order and none of
  them twice, each with one of its values;
* the clause with number `k` compares the `k`-th bound column, and the `k`-th parameter is
  the value of that column as it is when the search asks for exact comparison, and the pattern
  that finds it otherwise. -/
theorem bindMarks_paginate_compile {pre post : String} {m : ColumnMapping}
    (hpre : Template.IsPlain pre.toList) (hpost : Template.IsPlain post.toList)
    (hmarks : ∀ d ∈ ['?', '$'], d ∉ pre.toList ∧ d ∉ post.toList ∧ m.Avoids d)
    (hopen : Statement.IsBalanced pre.toList) (haside : m.Avoids '\x01')
    (hquotes : m.ClosesQuotes) (c : Criteria) (page : Option Page) :
    let q := compile (pre ++ "{filters}" ++ post) m c
    let paged := Page.paginate .postgreSql page q.query
    let sent := Dialect.postgreSql.bindMarks paged
    let bound := (Selection.of m c).bindings
    '?' ∉ sent.toList ∧
      Statement.numbers sent = (List.range' 1 q.values.length).map Text.decimal ∧
      Statement.unnumber sent = paged ∧
      bound.Ascending ∧
      (∀ column, column ∈ bound.columns ↔ ∃ value, c.Binds m column value) ∧
      (∀ column value, (column, value) ∈ bound → c.Binds m column value) ∧
      q.values = (bound.map fun e => if c.AsksExact then e.2 else likePattern e.2) ∧
      sent = Page.paginate .postgreSql page
        (pre ++ (Selection.of m c).numbered (decide c.AsksExact) 1 ++ post) := by
  intro q paged sent bound
  obtain ⟨hprequestion, hpostquestion, hquestion⟩ := hmarks '?' (by decide)
  obtain ⟨hpredollar, hpostdollar, hdollar⟩ := hmarks '$' (by decide)
  have hcolumns := isColumn_of_mem_columns hquestion hdollar hquotes c
  have hq : q = ⟨pre ++ (Selection.of m c).condition c.isExact ++ post,
      (Selection.of m c).parameters c.isExact⟩ := by
    simp only [q, compile_around hpre hpost, query_compile_alone haside]
    rw [compile_alone]
  have hvalue (e : String × String) :
      parameter c.isExact e.2 = if c.AsksExact then e.2 else likePattern e.2 := by
    simp only [parameter, Criteria.isExact_iff]
  have hvalues : q.values = bound.map fun e => if c.AsksExact then e.2 else likePattern e.2 := by
    simp only [← hvalue]
    rw [hq]
    exact getD_parameters c.isExact (Selection.of m c)
  have hlength : q.values.length = bound.length := by rw [hvalues, List.length_map]
  have hpaged : paged = Page.paginate .postgreSql page
      (pre ++ (Selection.of m c).condition c.isExact ++ post) := by
    simp only [paged, hq]
  obtain ⟨hnone, hnumbers, hback⟩ := numbers_around ⟨hprequestion, hpredollar⟩
    ⟨hpostquestion, hpostdollar⟩ hopen hcolumns c.isExact page
  rw [← hpaged] at hnone hnumbers hback
  refine ⟨hnone, by rw [hlength]; exact hnumbers, hback, ascending_bindings_of m c,
    fun column => mem_columns_iff, fun column value => binds_of_mem_bindings, hvalues, ?_⟩
  have hsent : sent = Page.paginate .postgreSql page (Dialect.postgreSql.bindMarks
      (pre ++ (Selection.of m c).condition c.isExact ++ post)) := by
    simp only [sent, hpaged, Statement.bindMarks_paginate]
  rw [hsent, Dialect.bindMarks, numberMarks_around ⟨hprequestion, hpredollar⟩
    ⟨hpostquestion, hpostdollar⟩ hopen hcolumns, Criteria.isExact_eq_decide]

/-- A quoted column with a doubled quote in its name, literals around the filter and a
terminator behind it: the page is numbered as if none of them were there, whether the values are
contained in the columns or compared as they are. -/
theorem bindMarks_paginate_compile_quoted :
    let pre := "where note <> 'it''s' and ("
    let m := ColumnMapping.parse ["username=\"Login \"\"Name\"\"\"", "email=mail"]
    let q (c : Criteria) := compile (pre ++ "{filters}" ++ ") ; ") m c
    let sent (c : Criteria) :=
      Dialect.postgreSql.bindMarks (Page.paginate .postgreSql (some ⟨2, 10⟩) (q c).query)
    let found : Criteria := KeyedList.ofList [("username", "o'neil"), ("email", "100%")]
    let same : Criteria := found.withAttribute "exact" " TRUE\t"
    (¬ found.AsksExact ∧ (q found).values = ["%O'NEIL%", "%100!%%"] ∧
      sent found = "where note <> 'it''s' and ( UPPER(\"Login \"\"Name\"\"\") LIKE $1" ++
        " ESCAPE '!' AND UPPER(mail) LIKE $2 ESCAPE '!' ) LIMIT 10 OFFSET 20" ∧
      Statement.numbers (sent found) = [['1'], ['2']]) ∧
    same.AsksExact ∧ (q same).values = ["o'neil", "100%"] ∧
      sent same = "where note <> 'it''s' and ( UPPER(\"Login \"\"Name\"\"\") = $1 " ++
        " AND UPPER(mail) = $2  ) LIMIT 10 OFFSET 20" ∧
      Statement.numbers (sent same) = [['1'], ['2']] := by
  intro pre m q sent found same
  have hpre : Template.IsPlain pre.toList := ⟨by decide, by decide, by decide⟩
  have hpost : Template.IsPlain ") ; ".toList := ⟨by decide, by decide, by decide⟩
  have hmarks : ∀ d ∈ ['?', '$'], d ∉ pre.toList ∧ d ∉ ") ; ".toList ∧ m.Avoids d :=
    List.forall_mem_cons.mpr ⟨by decide, List.forall_mem_singleton.mpr (by decide)⟩
  have hopen : Statement.IsBalanced pre.toList := by decide
  have haside : m.Avoids '\x01' := by decide
  have hquotes : m.ClosesQuotes := by decide
  have haligned (c : Criteria) :=
    bindMarks_paginate_compile hpre hpost hmarks hopen haside hquotes c (some ⟨2, 10⟩)
  have hnumbers (c : Criteria) (h : (q c).values.length = 2) :
      Statement.numbers (sent c) = [['1'], ['2']] := by
    obtain ⟨-, hnumbers, -⟩ := haligned c
    refine hnumbers.trans ?_
    rw [show (compile (pre ++ "{filters}" ++ ") ; ") m c).values.length = 2 from h]
    decide +kernel
  obtain ⟨-, -, -, -, -, -, hfound, hsentfound⟩ := haligned found
  obtain ⟨-, -, -, -, -, -, hsame, hsentsame⟩ := haligned same
  have hlistfound : (q found).values = ["%O'NEIL%", "%100!%%"] := hfound.trans (by decide +kernel)
  have hlistsame : (q same).values = ["o'neil", "100%"] := hsame.trans (by decide +kernel)
  exact ⟨⟨by decide, hlistfound, hsentfound.trans (by decide +kernel),
      hnumbers found (by rw [hlistfound]; rfl)⟩,
    by decide, hlistsame, hsentsame.trans (by decide +kernel),
    hnumbers same (by rw [hlistsame]; rfl)⟩

end CompiledQuery

end RealmDirectory
