import RealmDirectory.Proofs.Query.Filling

/-!
# Filters behind a guard

An administrator can write a condition in front of the placeholder for filters, joined to it
by AND, to keep rows from every search. The filter follows the AND as it is, without
parentheses, and AND binds tighter than OR. A filter of several comparisons with OR between
them therefore gives the guard to its first comparison alone: the others select rows on which
the guard fails.

## Main results

* `selectsGuarded_iff`: which rows a guarded filter selects, for every text of a filter.
* `Selection.selectsBehind_condition_iff`, `Selection.exists_behind_of_iff`: which filters
  select rows behind their guard.
* `CompiledQuery.selectsGuarded_compile_iff`: the rows that a guarded search selects.
-/

namespace RealmDirectory

/-! ### Reading behind a guard -/

/-- A guard and the AND behind it are read as one condition in front of a clause. -/
theorem Clause.readGuarded?_and (guard filter : List Char) (values : List String) :
    readGuarded? guard values (guard ++ (" and ".toList ++ filter)) =
      (read? values filter).map fun c =>
        join none .all ⟨c.first.map some, c.others.map (List.map some)⟩ := by
  have hblanks : Text.dropBlanks (" and ".toList ++ filter) = "and ".toList ++ filter := rfl
  have hword : readWord? ("and ".toList ++ filter) = some (.all, filter) := rfl
  rw [readGuarded?, dropPrefix?_append]
  simp only [hblanks, hword, Option.bind_eq_bind, Option.bind_some]
  cases read? values filter <;> rfl

/-- The guard is joined to the first comparison, and not to the second. -/
example : Clause.readGuarded? "tenant = 7".toList ["%BO%", "%BO%"]
    "tenant = 7 and  UPPER(a) LIKE ? ESCAPE '!' OR UPPER(b) LIKE ? ESCAPE '!' ".toList =
      some ⟨[none, some (.like "a" "%BO%")], [[some (.like "b" "%BO%")]]⟩ := by decide

/-- **A guarded filter selects a row when the guard holds and the filter selects it, or by an
alternative behind the filter's first OR**, which the guard does not reach. -/
theorem selectsGuarded_iff {rules : TextRules} {cells : Cells} {guard filter : String}
    {holds : Bool} {values : List String} :
    SelectsGuarded rules cells guard holds (guard ++ " and " ++ filter) values ↔
      holds = true ∧ Selects rules cells filter values ∨
        holds = false ∧ SelectsBehind rules cells filter values := by
  have htext : (guard ++ " and " ++ filter).toList =
      guard.toList ++ (" and ".toList ++ filter.toList) := by
    simp only [String.toList_append, List.append_assoc]
  have hread := Clause.readGuarded?_and guard.toList filter.toList values
  rw [← htext] at hread
  cases hfilter : Clause.read? values filter.toList with
  | none =>
      rw [hfilter] at hread
      simp only [SelectsGuarded, Selects, SelectsBehind, hread, hfilter, Option.map_none,
        reduceCtorEq, false_and, exists_false, and_false, or_false]
  | some c =>
      rw [hfilter] at hread
      have hclause : SelectsGuarded rules cells guard holds (guard ++ " and " ++ filter) values ↔
          (holds = true ∧ ∀ a ∈ c.first, a.outcome rules cells = some true) ∨
            ∃ l ∈ c.others, ∀ a ∈ l, a.outcome rules cells = some true := by
        simp only [SelectsGuarded, hread, Option.map_some, Option.some.injEq, exists_eq_left',
          Clause.outcome_eq_true_iff, Clause.join, List.forall_mem_cons, List.forall_mem_map,
          Option.elim_none, Option.elim_some]
        simp only [List.mem_map, exists_exists_and_eq_and, forall_exists_index, and_imp,
          forall_apply_eq_imp_iff₂, Option.elim_some]
      have hbehind : SelectsBehind rules cells filter values ↔
          ∃ l ∈ c.others, ∀ a ∈ l, a.outcome rules cells = some true := by
        simp only [SelectsBehind, hfilter, Option.some.injEq, exists_eq_left']
      rw [hclause, selects_iff_of_read? hfilter, Clause.outcome_eq_true_iff, hbehind]
      cases holds with
      | true => simp only [true_and, Bool.true_eq_false, false_and, or_false]
      | false => simp only [Bool.false_eq_true, false_and, false_or, true_and]

/-! ### Which filters select behind a guard -/

namespace Selection

/-- **A selection selects rows behind a guard by a value that may match alone, and is not the
first.** -/
theorem selectsBehind_condition_iff {s : Selection} (hbound : s.IsBound)
    (hmark : ∀ d ∈ s.columns, '?' ∉ d.toList) {exact : Bool} {rules : TextRules}
    {cells : Cells} :
    SelectsBehind rules cells (s.condition exact) ((s.parameters exact).getD []) ↔
      ∃ e l, s = matching .any (e :: l) ∧ ∃ d ∈ l, Meets rules exact d.2 (cells d.1) := by
  have hread := read?_condition hbound hmark exact
  have hothers : SelectsBehind rules cells (s.condition exact)
        ((s.parameters exact).getD []) ↔
      ∃ l ∈ (s.clause exact).others, ∀ a ∈ l, a.outcome rules cells = some true := by
    simp only [SelectsBehind, hread, Option.some.injEq, exists_eq_left']
  rw [hothers]
  match s, hbound with
  | everyone, _ => simp [clause, Clause.single]
  | nobody, _ => simp [clause, Clause.single]
  | matching .all (e :: l), _ => simp [clause, Clause.chain_all]
  | matching .any (e :: l), _ =>
      simp [clause, Clause.chain_any, outcome_atom_iff]

/-- A selection that needs one match of several leaves out the first of them. -/
theorem exists_behind_ofBound_iff {b : Bindings} (h : b.Ascending)
    {p : String × String → Prop} :
    (∃ e l, ofBound .any b = matching .any (e :: l) ∧ ∃ d ∈ l, p d) ↔
      ∃ f ∈ b, ∃ d ∈ b, f.1 < d.1 ∧ p d := by
  cases b with
  | nil => simp [ofBound]
  | cons e r =>
      rw [← h.exists_mem_tail_iff]
      constructor
      · rintro ⟨e', l, heq, hl⟩
        injection heq with _ hcons
        injection hcons with _ hr
        exact hr ▸ hl
      · intro hr
        exact ⟨e, r, rfl, hr⟩

end Selection

/-- The search looks for a keyword, and the keyword is found in a searched column that
another searched column precedes. -/
def Criteria.HasKeywordBehind (m : ColumnMapping) (c : Criteria) (rules : TextRules)
    (cells : Cells) : Prop :=
  ∃ keyword, c.SeeksKeyword keyword ∧
    ∃ name₁ ∈ searchable, ∃ name₂ ∈ searchable, ∃ column₁ column₂,
      m.column name₁ = some column₁ ∧ m.column name₂ = some column₂ ∧ column₁ < column₂ ∧
        Meets rules (decide c.AsksExact) keyword (cells column₂)

namespace Selection

open Criteria

/-- A search for a keyword selects rows behind a guard by a column that another one
precedes. -/
theorem exists_behind_keyword_iff {m : ColumnMapping} {c : Criteria} {rules : TextRules}
    {cells : Cells} {keyword : String} (hkey : c.SeeksKeyword keyword) :
    (∃ e l, ofBound .any (bindColumns (keywordBindings m keyword)) = matching .any (e :: l) ∧
        ∃ d ∈ l, Meets rules c.isExact d.2 (cells d.1)) ↔
      HasKeywordBehind m c rules cells := by
  rw [exists_behind_ofBound_iff (Bindings.ascending_bindColumns _), isExact_eq_decide]
  simp only [Prod.exists, mem_bindColumns_keywordBindings]
  constructor
  · rintro ⟨column₁, _, ⟨rfl, name₁, hname₁, hcolumn₁⟩, column₂, _,
      ⟨rfl, name₂, hname₂, hcolumn₂⟩, hlt, hmeets⟩
    exact ⟨_, hkey, name₁, hname₁, name₂, hname₂, column₁, column₂, hcolumn₁, hcolumn₂, hlt,
      hmeets⟩
  · rintro ⟨keyword', hkey', name₁, hname₁, name₂, hname₂, column₁, column₂, hcolumn₁,
      hcolumn₂, hlt, hmeets⟩
    obtain rfl := Option.some.inj (hkey.2.1.symm.trans hkey'.2.1)
    exact ⟨column₁, keyword, ⟨rfl, name₁, hname₁, hcolumn₁⟩, column₂, keyword,
      ⟨rfl, name₂, hname₂, hcolumn₂⟩, hlt, hmeets⟩

/-- **A search selects rows behind a guard by a keyword that is found in a later column.** -/
theorem exists_behind_of_iff {m : ColumnMapping} {c : Criteria} {rules : TextRules}
    {cells : Cells} :
    (∃ e l, of m c = matching .any (e :: l) ∧
        ∃ d ∈ l, Meets rules c.isExact d.2 (cells d.1)) ↔
      HasKeywordBehind m c rules cells := by
  cases hm : m.isEmpty with
  | true =>
      rw [of_isEmpty hm]
      simp [HasKeywordBehind, ColumnMapping.column_eq_none hm]
  | false =>
      rcases c.asks_cases with hattr | ⟨keyword, hkey⟩ | hnothing
      · refine iff_of_false ?_ ?_
        · rintro ⟨e, l, heq, -⟩
          rw [of_attributes hm hattr] at heq
          cases hb : bindColumns (attributeBindings m c) <;> simp [hb, ofBound] at heq
        · rintro ⟨keyword, hkey, -⟩
          exact hkey.1 hattr
      · rw [of_keyword hm hkey]
        exact exists_behind_keyword_iff hkey
      · refine iff_of_false ?_ ?_
        · rintro ⟨e, l, heq, -⟩
          rw [of_seeksNothing hnothing] at heq
          cases heq
        · rintro ⟨keyword, hkey, -⟩
          exact hkey.2.2 (hnothing.2 keyword hkey.2.1)

end Selection

namespace CompiledQuery

open Criteria Selection

variable {m : ColumnMapping} {c : Criteria}

/-- The word in front of a where clause is no part of a placeholder. -/
theorem fill_append_where (x value : String) :
    Template.fill (x ++ "where") Template.filters value =
      Template.fill x Template.filters value ++ "where" := by
  have houtside : Template.IsOutside Template.filters.toList 'w' := by decide
  have hplain : Template.IsPlain "here".toList := ⟨by decide, by decide, by decide⟩
  have htext : (x ++ "where").toList = x.toList ++ 'w' :: "here".toList := by simp
  rw [← String.toList_inj]
  simp only [Template.fill, String.toList_ofList, String.toList_append, htext,
    Template.fillChars_append_cons houtside, Template.fillChars_plain hplain]
  simp

/-- **The guard and the filter of a search stand side by side in the statement**, each as it
is filled on its own. -/
theorem compile_where_and (pre guard post : String) (m : ColumnMapping) (c : Criteria) :
    compile (pre ++ "where " ++ guard ++ " and {filters}" ++ post) m c =
      ⟨filled m c pre ++ "where " ++
          (filled m c guard ++ " and " ++ (compile "{filters}" m c).query) ++ filled m c post,
        (compile "{filters}" m c).params⟩ := by
  have htemplate : pre ++ "where " ++ guard ++ " and {filters}" ++ post =
      (pre ++ "where") ++ " " ++ (guard ++ " " ++ ("and" ++ " " ++ ("{filters}" ++ post))) := by
    rw [← String.toList_inj]
    simp
  have hmentions : Template.mentions
      (pre ++ "where " ++ guard ++ " and {filters}" ++ post) Template.filters = true := by
    have htext : pre ++ "where " ++ guard ++ " and {filters}" ++ post =
        (pre ++ "where " ++ guard ++ " and") ++ " " ++ ("{filters}" ++ post) := by
      rw [← String.toList_inj]
      simp
    rw [htext]
    exact Template.mentions_behind_blank _ post
  have hand : Template.IsPlain "and".toList := ⟨by decide, by decide, by decide⟩
  have hclosed := isClosed_condition (isBound_of m c) c.isExact
  rw [compile_of_mentions hmentions, compile_alone, htemplate, Template.fill_append_blank,
    fill_append_where, Template.fill_append_blank, Template.fill_append_blank,
    Template.fill_filters_append hclosed]
  have handFilled := filled_plain hand m c
  rw [filled] at handFilled
  rw [handFilled]
  refine congrArg (CompiledQuery.mk · _) ?_
  rw [← String.toList_inj]
  simp [filled]

/-- **The rows that a guarded search selects.** Where the guard holds, the rows that the
filter selects on its own. Where it fails, the rows that an alternative behind the filter's
first OR selects: none for attributes, for everyone and for nobody, and for a keyword those
in which a searched column holds it that is not the smallest one. -/
theorem selectsGuarded_compile_iff (pre guard post : String) (m : ColumnMapping)
    (c : Criteria) :
    let search := compile (pre ++ "where " ++ guard ++ " and {filters}" ++ post) m c
    let filter := compile "{filters}" m c
    ∃ clause, search.query = filled m c pre ++ "where " ++ clause ++ filled m c post ∧
      ∀ rules cells holds,
        (SelectsGuarded rules cells (filled m c guard) holds clause search.values ↔
          holds = true ∧ Selects rules cells filter.query filter.values ∨
            holds = false ∧ SelectsBehind rules cells filter.query filter.values) ∧
        (m.Avoids '?' → m.Avoids '\x01' →
          (SelectsBehind rules cells filter.query filter.values ↔
            HasKeywordBehind m c rules cells)) := by
  intro search filter
  have hsearch : search = _ := compile_where_and pre guard post m c
  have hvalues : search.values = filter.values := by rw [hsearch]; rfl
  refine ⟨filled m c guard ++ " and " ++ filter.query, by rw [hsearch], ?_⟩
  intro rules cells holds
  constructor
  · rw [hvalues]
    exact selectsGuarded_iff
  · intro hmark hescape
    have hparams : filter.values = ((of m c).parameters c.isExact).getD [] := by
      have hfilter : filter = _ := compile_alone m c
      rw [hfilter]
      rfl
    rw [query_compile_alone hescape c, hparams,
      selectsBehind_condition_iff (isBound_of m c) (notMem_of_mem_columns hmark)]
    exact exists_behind_of_iff

/-- A row of another tenant is found by its mail address. -/
theorem selectsGuarded_compile_tenant :
    let m := ColumnMapping.parse ["username=login", "email=mail"]
    let c : Criteria := KeyedList.ofList [("search", "bob")]
    let search := compile
      ("select * from users " ++ "where " ++ "tenant = 7" ++ " and {filters}" ++ " order by 1") m c
    (m.Avoids '?' ∧ m.Avoids '\x01') ∧
    ∃ clause, search.query = "select * from users " ++ "where " ++ clause ++ " order by 1" ∧
      ∀ upper cells, cells "mail" = some "bob" → upper "bob".toList = "BOB".toList →
        SelectsGuarded ⟨upper, fun d e => d == e⟩ cells "tenant = 7" false clause
          search.values := by
  intro m c search
  have hmark : m.Avoids '?' := by decide
  have hescape : m.Avoids '\x01' := by decide
  have hplain (part : String) (h : part = "select * from users " ∨ part = "tenant = 7" ∨
      part = " order by 1") : filled m c part = part := by
    refine filled_plain ⟨?_, ?_, ?_⟩ m c <;> rcases h with rfl | rfl | rfl <;> decide
  obtain ⟨clause, hquery, hclause⟩ :=
    selectsGuarded_compile_iff "select * from users " "tenant = 7" " order by 1" m c
  rw [hplain _ (by simp), hplain _ (by simp)] at hquery
  refine ⟨⟨hmark, hescape⟩, clause, hquery, fun upper cells hcells hupper => ?_⟩
  obtain ⟨hguarded, hbehind⟩ := hclause ⟨upper, fun d e => d == e⟩ cells false
  rw [hplain _ (by simp)] at hguarded
  refine hguarded.mpr (Or.inr ⟨rfl, (hbehind hmark hescape).mpr ?_⟩)
  have hseeks : c.SeeksKeyword "bob" := by
    refine ⟨fun h => hasAttribute_iff.mp h (by decide), by decide, ?_⟩
    rw [← isWildcard_iff]
    decide
  refine ⟨"bob", hseeks, "username", by decide, "email", by decide, "login", "mail",
    by decide, by decide, by decide, "bob", hcells, ?_⟩
  have hexact : ¬ c.AsksExact := by decide
  have hfound : Text.upperCase "bob".toList = "BOB".toList := by decide
  rw [if_neg (by simpa using hexact)]
  simp only [hupper, hfound]
  exact ⟨_, List.infix_rfl, List.forall₂_same.mpr fun d _ => beq_self_eq_true d⟩

end CompiledQuery

end RealmDirectory
