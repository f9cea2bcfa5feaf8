import RealmDirectory.Proofs.Query.Asking
import RealmDirectory.Proofs.Query.Clause
import RealmDirectory.Proofs.Query.Pattern

/-!
# Reading compiled filters

The filter of a selection, read as a where clause with its parameters bound to its marks,
is the selection again: one comparison for each bound column, in their order, each with the
parameter of its own column, and the word of the combination between them. What the columns
are made of does not matter as long as they hold no mark themselves.

## Main results

* `readComparison?_equals`, `readComparison?_like`: one comparison is read back.
* `readUpTo_condition`: comparisons with a word between them are read back as a chain.
* `read?_condition`: a filter is read back.
* `selects_condition_iff`: a filter selects the rows that its selection accepts.
-/

namespace RealmDirectory

/-- A column's value meets a value that is looked for: it is the value, or it contains the
upper-cased value. NULL meets nothing. -/
def Meets (rules : TextRules) (exact : Bool) (value : String) (cell : Option String) : Prop :=
  ∃ t, cell = some t ∧
    if exact then rules.upper t.toList = value.toList
    else Text.Contains rules.same (Text.upperCase value.toList) (rules.upper t.toList)

namespace Selection

/-- The rows that a selection accepts. -/
def Accepts (rules : TextRules) (exact : Bool) (cells : Cells) : Selection → Prop
  | everyone => True
  | nobody => False
  | matching .all bound => ∀ e ∈ bound, Meets rules exact e.2 (cells e.1)
  | matching .any bound => ∃ e ∈ bound, Meets rules exact e.2 (cells e.1)

/-- The parameter for a value. -/
def parameter (exact : Bool) (value : String) : String :=
  if exact then value else likePattern value

/-- The condition that compares a column with the parameter for a value. -/
def atom (exact : Bool) (e : String × String) : Atom :=
  if exact then .equals e.1 e.2 else .like e.1 (likePattern e.2)

/-- A comparison is true when the column's value meets the value. -/
theorem outcome_atom_iff {rules : TextRules} {cells : Cells} {exact : Bool}
    {e : String × String} :
    (atom exact e).outcome rules cells = some true ↔ Meets rules exact e.2 (cells e.1) := by
  cases exact with
  | true =>
      simp only [atom, if_true, Atom.outcome, Option.map_eq_some_iff, beq_iff_eq, Meets]
  | false =>
      simp only [atom, Bool.false_eq_true, if_false, Atom.outcome, Option.map_eq_some_iff,
        Meets]
      exact exists_congr fun t => and_congr_right fun _ => likes_likePattern_iff _ _ _

/-- The filter for one column is a comparison. -/
theorem condition_singleton (word : Combination) (exact : Bool) (e : String × String) :
    (matching word [e]).condition exact = comparison exact e.1 :=
  String.intercalate_singleton (s := word.word)

/-- A word stands between the first comparison of a filter and the others. -/
theorem condition_cons (word : Combination) (exact : Bool) (e d : String × String)
    (l : List (String × String)) :
    (matching word (e :: d :: l)).condition exact =
      comparison exact e.1 ++ word.word ++ (matching word (d :: l)).condition exact :=
  String.intercalate_cons_cons

end Selection

namespace Clause

/-! ### One comparison -/

/-- A text that begins with a piece goes on behind the piece. -/
theorem dropPrefix?_append (x r : List Char) : (x ++ r).dropPrefix? x = some r :=
  List.dropPrefix?_append_of_beq r (beq_self_eq_true x)

/-- A text without the mark is read up to the mark. -/
theorem takeWhile_mark {x : List Char} (h : '?' ∉ x) (y : List Char) :
    (x ++ '?' :: y).takeWhile (· != '?') = x := by
  have hx : ∀ c ∈ x, (c != '?') = true := by
    intro c hc
    exact bne_iff_ne.mpr fun heq => h (heq ▸ hc)
  rw [List.takeWhile_append_of_pos hx]
  simp

/-- A text without the mark is passed over up to the mark. -/
theorem dropWhile_mark {x : List Char} (h : '?' ∉ x) (y : List Char) :
    (x ++ '?' :: y).dropWhile (· != '?') = '?' :: y := by
  have hx : ∀ c ∈ x, (c != '?') = true := by
    intro c hc
    exact bne_iff_ne.mpr fun heq => h (heq ▸ hc)
  rw [List.dropWhile_append_of_pos hx]
  simp

/-- An equation with a mark is read back. -/
theorem readComparison?_equals {column : List Char} (h : '?' ∉ column) (value : String)
    (values : List String) (r : List Char) :
    readComparison? (value :: values) ("UPPER(".toList ++ (column ++ (") = ?".toList ++ r))) =
      some (.equals (String.ofList column) value, values, r) := by
  have hmark : '?' ∉ column ++ ") = ".toList := by
    simpa using h
  have htext : column ++ (") = ?".toList ++ r) = (column ++ ") = ".toList) ++ '?' :: r := by
    simp
  have hbehind : ('?' :: r).dropPrefix? ['?'] = some r := dropPrefix?_append ['?'] r
  have hsuffix : (column ++ ") = ".toList).dropSuffix? ") = ".toList = some column :=
    List.dropSuffix?_eq_some_iff.mpr ⟨_, rfl, beq_self_eq_true _⟩
  rw [readComparison?, dropPrefix?_append]
  simp only [Option.bind_eq_bind, Option.bind_some, List.head?_cons, htext,
    takeWhile_mark hmark, dropWhile_mark hmark, hbehind, hsuffix, List.tail_cons]

/-- A comparison with a pattern is read back. -/
theorem readComparison?_like {column : List Char} (h : '?' ∉ column) (pattern : String)
    (values : List String) (r : List Char) :
    readComparison? (pattern :: values)
        ("UPPER(".toList ++ (column ++ (") LIKE ? ESCAPE '!'".toList ++ r))) =
      some (.like (String.ofList column) pattern, values, r) := by
  have hmark : '?' ∉ column ++ ") LIKE ".toList := by
    simpa using h
  have htext : column ++ (") LIKE ? ESCAPE '!'".toList ++ r) =
      (column ++ ") LIKE ".toList) ++ '?' :: (" ESCAPE '!'".toList ++ r) := by
    simp
  have hbehind : ('?' :: (" ESCAPE '!'".toList ++ r)).dropPrefix? ['?'] =
      some (" ESCAPE '!'".toList ++ r) := dropPrefix?_append ['?'] _
  have hsuffix : (column ++ ") LIKE ".toList).dropSuffix? ") LIKE ".toList = some column :=
    List.dropSuffix?_eq_some_iff.mpr ⟨_, rfl, beq_self_eq_true _⟩
  -- The two comparisons differ in the last letter before the blank.
  have hnone : (column ++ ") LIKE ".toList).dropSuffix? ") = ".toList = none := by
    cases hs : (column ++ ") LIKE ".toList).dropSuffix? ") = ".toList with
    | none => rfl
    | some p =>
        obtain ⟨s', heq, hs'⟩ := List.dropSuffix?_eq_some_iff.mp hs
        rw [eq_of_beq hs'] at heq
        have hrev := congrArg List.reverse heq
        simp at hrev
  rw [readComparison?, dropPrefix?_append]
  simp only [Option.bind_eq_bind, Option.bind_some, List.head?_cons, htext,
    takeWhile_mark hmark, dropWhile_mark hmark, hbehind, hnone, hsuffix, List.tail_cons,
    dropPrefix?_append]

/-- The blanks behind a comparison. -/
def gap (exact : Bool) : List Char := if exact then [' ', ' '] else [' ']

/-- **A comparison that a filter has for a column is read back**, with the next value as its
parameter. -/
theorem readAtom?_comparison (exact : Bool) {e : String × String} (h : '?' ∉ e.1.toList)
    (values : List String) (r : List Char) :
    readAtom? (Selection.parameter exact e.2 :: values)
        (Text.dropBlanks ((Selection.comparison exact e.1).toList ++ r)) =
      some (Selection.atom exact e, values, gap exact ++ r) := by
  cases exact with
  | true =>
      have htext : Text.dropBlanks ((Selection.comparison true e.1).toList ++ r) =
          "UPPER(".toList ++ (e.1.toList ++ (") = ?".toList ++ (gap true ++ r))) := by
        simp [Selection.comparison, Text.dropBlanks, gap, Text.isBlank]
      rw [htext]
      have hread := readComparison?_equals h e.2 values (gap true ++ r)
      rw [String.ofList_toList] at hread
      exact hread
  | false =>
      have htext : Text.dropBlanks ((Selection.comparison false e.1).toList ++ r) =
          "UPPER(".toList ++
            (e.1.toList ++ (") LIKE ? ESCAPE '!'".toList ++ (gap false ++ r))) := by
        simp [Selection.comparison, Text.dropBlanks, gap, Text.isBlank]
      rw [htext]
      have hread := readComparison?_like h (likePattern e.2) values (gap false ++ r)
      rw [String.ofList_toList] at hread
      exact hread

/-! ### Comparisons with a word between them -/

/-- The word between two comparisons is read back. -/
theorem readWord?_word (word : Combination) (r : List Char) :
    readWord? (word.word.toList ++ ' ' :: r) = some (word, r) := by
  cases word <;> rfl

/-- A blank in front of a clause means nothing. -/
theorem readUpTo_blank (budget : Nat) (values : List String) (s : List Char) :
    readUpTo budget values (' ' :: s) = readUpTo budget values s := by
  cases budget with
  | zero => rfl
  | succ budget =>
      have hdrop : Text.dropBlanks (' ' :: s) = Text.dropBlanks s :=
        List.dropWhile_cons_of_pos rfl
      rw [readUpTo, readUpTo, hdrop]

/-- The gap behind a comparison is passed over. -/
theorem dropBlanks_gap (exact : Bool) (s : List Char) :
    Text.dropBlanks (gap exact ++ s) = Text.dropBlanks s := by
  have hgap : ∀ c ∈ gap exact, Text.isBlank c = true := by
    intro c hc
    have hblank : c = ' ' := by cases exact <;> simpa [gap] using hc
    rw [hblank]
    rfl
  exact List.dropWhile_append_of_pos hgap

/-- One comparison is read back as one condition. -/
theorem readUpTo_comparison {exact : Bool} {e : String × String} (h : '?' ∉ e.1.toList)
    (budget : Nat) (values : List String) :
    readUpTo (budget + 1) (Selection.parameter exact e.2 :: values)
        (Selection.comparison exact e.1).toList =
      some (single (Selection.atom exact e), values) := by
  have hatom := readAtom?_comparison exact h values []
  rw [List.append_nil] at hatom
  have hend : Text.dropBlanks (gap exact ++ []) = [] := dropBlanks_gap exact []
  simp only [readUpTo, hatom, hend, Option.bind_eq_bind, Option.bind_some]

/-- A comparison and a word in front of a clause are joined to it. -/
theorem readUpTo_comparison_word {exact : Bool} {e : String × String} (h : '?' ∉ e.1.toList)
    (budget : Nat) (values : List String) (word : Combination) (s : List Char) :
    readUpTo (budget + 1) (Selection.parameter exact e.2 :: values)
        ((Selection.comparison exact e.1).toList ++ (word.word.toList ++ ' ' :: s)) =
      (readUpTo budget values s).map fun p => (join (Selection.atom exact e) word p.1, p.2) := by
  obtain ⟨c, t, hcons⟩ : ∃ c t, word.word.toList ++ ' ' :: s = c :: t := by
    cases word <;> exact ⟨_, _, rfl⟩
  have hword : Text.dropBlanks (gap exact ++ c :: t) = c :: t := by
    rw [← hcons, dropBlanks_gap]
    cases word <;> rfl
  have hread : readWord? (c :: t) = some (word, s) := hcons ▸ readWord?_word word s
  simp only [readUpTo, hcons, readAtom?_comparison exact h, hword, hread, Option.bind_eq_bind,
    Option.bind_some]
  cases readUpTo budget values s <;> rfl

/-- The comparisons of a filter begin with a blank. -/
theorem exists_condition_eq (word : Combination) (exact : Bool) (e : String × String)
    (l : List (String × String)) :
    ∃ s, ((Selection.matching word (e :: l)).condition exact).toList = ' ' :: s := by
  cases l <;> cases exact <;>
    simp [Selection.condition, Text.join, Selection.comparison, String.intercalate_cons_cons]

/-- **The comparisons of a filter are read back as a chain**, each with the parameter of its
own column. -/
theorem readUpTo_condition {exact : Bool} (word : Combination) (e : String × String)
    (l : List (String × String)) (h : ∀ d ∈ e :: l, '?' ∉ d.1.toList) {budget : Nat}
    (hbudget : l.length < budget) :
    readUpTo budget ((e :: l).map fun d => Selection.parameter exact d.2)
        ((Selection.matching word (e :: l)).condition exact).toList =
      some (chain word (Selection.atom exact e) (l.map (Selection.atom exact)), []) := by
  have he : '?' ∉ e.1.toList := h e List.mem_cons_self
  obtain _ | budget := budget
  · exact absurd hbudget (Nat.not_lt_zero _)
  · induction l generalizing e budget with
    | nil =>
        rw [Selection.condition_singleton]
        exact readUpTo_comparison he budget []
    | cons d l ih =>
        have hl : ∀ b ∈ d :: l, '?' ∉ b.1.toList := fun b hb => h b (List.mem_cons_of_mem e hb)
        obtain ⟨s, hs⟩ := exists_condition_eq word exact d l
        have htext : ((Selection.matching word (e :: d :: l)).condition exact).toList =
            (Selection.comparison exact e.1).toList ++ (word.word.toList ++ ' ' :: s) := by
          rw [Selection.condition_cons, String.toList_append, String.toList_append, hs,
            List.append_assoc]
        obtain _ | budget := budget
        · exact absurd (Nat.lt_of_succ_lt_succ hbudget) (Nat.not_lt_zero _)
        · have hrest := ih d hl (hl d List.mem_cons_self) budget (Nat.lt_of_succ_lt_succ hbudget)
          rw [hs, readUpTo_blank] at hrest
          rw [htext, List.map_cons, readUpTo_comparison_word he, hrest]
          rfl

/-- A filter is longer than the list of its comparisons. -/
theorem length_lt_condition (word : Combination) (exact : Bool) (e : String × String)
    (l : List (String × String)) :
    l.length < ((Selection.matching word (e :: l)).condition exact).toList.length := by
  induction l generalizing e with
  | nil =>
      obtain ⟨s, hs⟩ := exists_condition_eq word exact e []
      rw [hs]
      exact Nat.zero_lt_succ _
  | cons d l ih =>
      have hword : 0 < word.word.toList.length := by cases word <;> decide
      have hl := ih d
      rw [Selection.condition_cons]
      simp only [String.toList_append, List.length_append, List.length_cons]
      omega

/-- **A filter that binds values is read back**: its comparisons stand in the order of the
bound columns, each with the value of its column. -/
theorem read?_matching (word : Combination) (exact : Bool) (e : String × String)
    (l : List (String × String)) (h : ∀ d ∈ e :: l, '?' ∉ d.1.toList) :
    read? ((e :: l).map fun d => Selection.parameter exact d.2)
        ((Selection.matching word (e :: l)).condition exact).toList =
      some (chain word (Selection.atom exact e) (l.map (Selection.atom exact))) := by
  rw [read?, readUpTo_condition word e l h (length_lt_condition word exact e l)]

end Clause

namespace Selection

/-- The clause that the filter of a selection is. -/
def clause (exact : Bool) : Selection → Clause Atom
  | everyone => .single (.constant true)
  | nobody | matching _ [] => .single (.constant false)
  | matching word (e :: l) => .chain word (atom exact e) (l.map (atom exact))

/-- **A filter is read back**, when no bound column holds a mark of its own. -/
theorem read?_condition {s : Selection} (hbound : s.IsBound)
    (hmark : ∀ d ∈ s.columns, '?' ∉ d.toList) (exact : Bool) :
    Clause.read? ((s.parameters exact).getD []) (s.condition exact).toList =
      some (s.clause exact) := by
  match s, hbound, hmark with
  | everyone, _, _ =>
      have hread : Clause.read? [] "1=1".toList = some (.single (.constant true)) := by decide
      exact hread
  | nobody, _, _ =>
      have hread : Clause.read? [] "1=0".toList = some (.single (.constant false)) := by decide
      exact hread
  | matching word (e :: l), _, hmark =>
      exact Clause.read?_matching word exact e l fun d hd =>
        hmark d.1 (List.mem_map_of_mem hd)

/-- The clause of a selection is true on the rows that the selection accepts. -/
theorem outcome_clause_iff {s : Selection} (hbound : s.IsBound) {exact : Bool}
    {rules : TextRules} {cells : Cells} :
    (s.clause exact).outcome (Atom.outcome rules cells) = some true ↔
      s.Accepts rules exact cells := by
  match s, hbound with
  | everyone, _ => exact iff_of_true rfl trivial
  | nobody, _ => exact iff_of_false (fun h => Bool.false_ne_true (Option.some.inj h)) not_false
  | matching .all (e :: l), _ =>
      rw [Clause.outcome_eq_true_iff, clause, Clause.chain_all]
      simp only [Accepts, List.not_mem_nil, false_and, exists_false, or_false,
        List.forall_mem_cons, List.forall_mem_map, outcome_atom_iff]
  | matching .any (e :: l), _ =>
      rw [Clause.outcome_eq_true_iff, clause, Clause.chain_any]
      simp only [Accepts, List.mem_cons, List.not_mem_nil, or_false, forall_eq,
        List.map_map, List.mem_map, Function.comp_apply, outcome_atom_iff,
        exists_exists_and_eq_and, exists_eq_or_imp]

/-- **The filter of a selection selects the rows that the selection accepts**, whatever the
database takes for the upper case of a text. -/
theorem selects_condition_iff {s : Selection} (hbound : s.IsBound)
    (hmark : ∀ d ∈ s.columns, '?' ∉ d.toList) {exact : Bool} {rules : TextRules}
    {cells : Cells} :
    Selects rules cells (s.condition exact) ((s.parameters exact).getD []) ↔
      s.Accepts rules exact cells :=
  (selects_iff_of_read? (read?_condition hbound hmark exact)).trans
    (outcome_clause_iff hbound)

end Selection

end RealmDirectory
