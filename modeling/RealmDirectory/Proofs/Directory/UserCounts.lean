import RealmDirectory.Proofs.Directory.Sending
import RealmDirectory.Proofs.Query.CountQuery
import RealmDirectory.Proofs.Query.Terminator

/-!
# Counting users

A repository counts users in two ways. The users of a search are the rows of its statement, which
is put in parentheses as it stands. The users of the whole directory are counted by a statement
of its own, which is derived from the base statement when none is given. Both ways lean on how
the base statement is written. A statement with a terminator at its end keeps it inside the
parentheses, although a page of the same search would lose it. And a base statement that writes
out its select list lists the users where it should count them, so that the first column of the
first user is read as their number.

## Main results

* `Repository.count_of_search_terminated_iff`: what is counted for a search, beside what its
  pages are made of.
* `Repository.count_of_everyone_eq_listing_iff`: when the users are listed and not counted.
-/

namespace RealmDirectory.Repository

open Statement (IsTerminated)
open TemplateSet (ofTemplates given?)

variable {σ : Type}

/-! ### The users of a search -/

/-- A place for a select list has nothing to do with semicolons. -/
theorem isOutside_columns_semicolon : Template.IsOutside Template.columns.toList ';' := by decide

/-- A select list without attributes that end in a semicolon terminates no statement. -/
theorem isTerminated_withColumns_iff {m : ColumnMapping} (hempty : m.isEmpty = false)
    (hm : ∀ e ∈ m.entries, Text.lastVisible? e.1.toList ≠ some ';') (template : String) :
    IsTerminated (Template.withColumns template m []) ↔ IsTerminated template := by
  obtain ⟨e, he, hlast⟩ := ColumnMapping.exists_lastVisible?_selectList hempty
  have hshown : (Text.lastVisible? m.selectList.toList).isSome := by
    rw [hlast]
    cases Text.lastVisible? e.1.toList <;> rfl
  have hopen : ¬ IsTerminated m.selectList := by
    intro h
    have hor := hlast.symm.trans h
    cases hname : Text.lastVisible? e.1.toList with
    | none => simp [hname] at hor
    | some d =>
        rw [hname, Option.some_or] at hor
        exact hm e he (hname.trans hor)
  exact Template.isTerminated_fill_iff isOutside_columns_semicolon hshown hopen template

/-- What is counted for a search is its statement, as it stands. -/
theorem statement_count (r : Repository σ) {c : Criteria} (hc : c.isEmpty = false) :
    (Reading.count c).statement r =
      ("select count(*) from (" ++ (r.search c).query ++ ") count_result",
        (r.search c).values) := by
  have hcount : r.countStatement c =
      ⟨"select count(*) from (" ++ (r.search c).query ++ ") count_result",
        (r.search c).params⟩ := by
    rw [countStatement, hc, if_neg Bool.false_ne_true]
  have hwhole (statement : String) :
      Page.paginate r.queries.dialect none statement = statement := rfl
  simp only [Reading.statement, hcount, hwhole, CompiledQuery.values]

/-- A page of a search is its statement without blanks and semicolons at its end, with a clause
behind it. -/
theorem statement_matching (r : Repository σ) (c : Criteria) (page : Page) :
    (Reading.matching c (some page)).statement r =
      (Page.body (r.search c).query ++
        r.queries.dialect.addedOrder (Page.body (r.search c).query) ++
          r.queries.dialect.pageClause page.offset page.size.toNat, (r.search c).values) :=
  rfl

/-- **What is counted for a search, beside what its pages are made of.** Both are sent with the
same values. A page of the search is the statement of the search without blanks and semicolons at
its end, with a clause behind it; what is counted has them still. They are blanks only, and what
is counted is not terminated, exactly when the base statement is not terminated. The template of
the base statement hands its terminator on, and where no attribute ends in one, nothing else
makes any. -/
theorem count_of_search_terminated_iff (source : ConnectionSource σ) (t : Templates)
    (m : ColumnMapping) (engine : HashEngine) (dialect : Dialect)
    (allowDelete allowOverwrite : Bool) {c : Criteria} (hc : c.isEmpty = false) :
    let r : Repository σ := ⟨source, ofTemplates t m engine dialect allowDelete allowOverwrite⟩
    let base := r.queries.baseQuery
    let counted := (r.search c).query
    let values := (r.search c).values
    let body := Page.body counted
    (Reading.count c).statement r =
        ("select count(*) from (" ++ counted ++ ") count_result", values) ∧
      (∀ page : Page, (Reading.matching c (some page)).statement r =
        (body ++ r.queries.dialect.addedOrder body ++
          r.queries.dialect.pageClause page.offset page.size.toNat, values)) ∧
      (∃ tail : String, counted = body ++ tail ∧
        (∀ d ∈ tail.toList, Text.isBlank d = true ∨ d = ';') ∧
        ((∀ d ∈ tail.toList, Text.isBlank d = true) ↔ ¬ IsTerminated base)) ∧
      (IsTerminated counted ↔ IsTerminated base) ∧
      (IsTerminated t.base → IsTerminated base) ∧
      (m.isEmpty = false → (∀ e ∈ m.entries, Text.lastVisible? e.1.toList ≠ some ';') →
        (IsTerminated base ↔ IsTerminated t.base)) := by
  intro r base counted values body
  have hbase : base = Template.withColumns t.base m [] := rfl
  have hsearch : IsTerminated counted ↔ IsTerminated base :=
    CompiledQuery.isTerminated_compile_iff base r.queries.columns c
  refine ⟨statement_count r hc, statement_matching r c, ?_, hsearch, ?_, ?_⟩
  · obtain ⟨tail, htext, htail, hblank⟩ := Page.exists_body_append counted
    refine ⟨String.ofList tail, ?_, ?_, ?_⟩
    · rw [← String.toList_inj, String.toList_append, String.toList_ofList]
      exact htext
    · rwa [String.toList_ofList]
    · rw [String.toList_ofList, hblank, hsearch]
  · rw [hbase]
    exact fun h => Template.isTerminated_fill isOutside_columns_semicolon h _
  · rw [hbase]
    exact fun hempty hm => isTerminated_withColumns_iff hempty hm t.base

/-- A base statement with a terminator: a page of the search is taken from the statement without
it, but the count has a semicolon inside its parentheses. -/
theorem count_of_search_terminated_keyword :
    let t : Templates :=
      { base := "select {columns} from users where {filters} ;\n", findPasswordHash := "" }
    let m : ColumnMapping := ColumnMapping.parse ["username=login"]
    let c : Criteria := Criteria.withKeyword .empty "bob"
    let engine : HashEngine := { algorithm := .pbkdf2 }
    let source : ConnectionSource Unit := ⟨pure (), fun _ _ => pure [], fun _ _ => pure 0⟩
    let r : Repository Unit := ⟨source, ofTemplates t m engine .sqlite false false⟩
    c.isEmpty = false ∧
      (Reading.matching c (some ⟨0, 5⟩)).statement r =
        ("select login AS username from users where  UPPER(login) LIKE ? ESCAPE '!'" ++
          " LIMIT 5 OFFSET 0", ["%BOB%"]) ∧
      (Reading.count c).statement r =
        ("select count(*) from (select login AS username from users where " ++
          " UPPER(login) LIKE ? ESCAPE '!'  ;\n) count_result", ["%BOB%"]) ∧
      IsTerminated (r.search c).query := by
  intro t m c engine source r
  have hc : c.isEmpty = false := by decide
  have hterminated : IsTerminated t.base := by decide +kernel
  obtain ⟨hcount, hpage, -, hiff, hbase, -⟩ :=
    count_of_search_terminated_iff source t m engine .sqlite false false hc
  exact ⟨hc, (hpage ⟨0, 5⟩).trans (by decide +kernel), hcount.trans (by decide +kernel),
    hiff.mpr (hbase hterminated)⟩

/-! ### The users of the whole directory -/

/-- A search for nobody in particular has no values, and its filter selects everyone. -/
theorem search_empty (r : Repository σ) :
    r.search .empty = ⟨Template.fill r.queries.baseQuery Template.filters "1=1", none⟩ := by
  have heveryone : Selection.of r.queries.columns .empty = .everyone :=
    Selection.of_seeksNothing ⟨fun h => Criteria.hasAttribute_iff.mp h rfl, nofun⟩
  have hparams : (r.search .empty).params = none := by
    rw [search, CompiledQuery.compile, heveryone]
    split <;> rfl
  have hquery : (r.search .empty).query =
      Template.fill r.queries.baseQuery Template.filters "1=1" := by
    rw [search, CompiledQuery.query_compile, heveryone]
    rfl
  rw [← hquery, ← hparams]

/-- The statement that lists everyone. -/
theorem statement_users (r : Repository σ) :
    Reading.users.statement r =
      (Template.fill r.queries.baseQuery Template.filters "1=1", []) := by
  rw [Reading.statement, search_empty]
  rfl

/-- The statement that counts everyone. -/
theorem statement_count_empty (r : Repository σ) :
    (Reading.count .empty).statement r = (r.queries.countQuery, []) :=
  rfl

/-- Both statements are the base template, filled twice. -/
theorem statements_of_everyone (source : ConnectionSource σ) (t : Templates) (m : ColumnMapping)
    (engine : HashEngine) (dialect : Dialect) (allowDelete allowOverwrite : Bool)
    (h : given? t.count = none) :
    let r : Repository σ := ⟨source, ofTemplates t m engine dialect allowDelete allowOverwrite⟩
    (Reading.count .empty).statement r =
        (String.ofList (Template.fillTwice Template.countList t.base.toList), []) ∧
      Reading.users.statement r =
        (String.ofList (Template.fillTwice m.selectList.toList t.base.toList), []) := by
  intro r
  have hcount : r.queries.countQuery =
      Template.fill (Template.withColumns t.base m ["count(*)"]) Template.filters "1=1" := by
    have hfor : r.queries.countQuery = TemplateSet.countFor t m := rfl
    rw [hfor, TemplateSet.countFor_eq, h]
  have hbase : r.queries.baseQuery = Template.fill t.base Template.columns m.selectList := rfl
  rw [statement_count_empty, hcount, statement_users, hbase]
  simp only [Template.withColumns, Template.fill, Template.fillTwice, String.toList_ofList]
  exact ⟨rfl, trivial⟩

/-- **The count is the listing exactly when there is no place for a select list.** A select list
with attributes holds a blank, and without any it is empty; `count(*)` is neither. -/
theorem fillTwice_countList_eq_iff (m : ColumnMapping) (template : String) :
    Template.fillTwice Template.countList template.toList =
        Template.fillTwice m.selectList.toList template.toList ↔
      Template.places template Template.columns = 0 := by
  have hlist : Template.countList = "count(*)".toList := rfl
  rw [hlist]
  cases hempty : m.isEmpty with
  | true =>
      have hcolumns : Template.IsOutside Template.columns.toList '*' := by decide
      have hfilters : Template.IsOutside Template.filters.toList '*' := by decide
      have hnone : m.selectList = "" := by
        rw [ColumnMapping.selectList, List.isEmpty_iff.mp hempty]
        rfl
      exact Template.fillTwice_eq_iff hcolumns hfilters (by decide) (hnone ▸ by decide) template
  | false =>
      have hcolumns : Template.IsOutside Template.columns.toList ' ' := by decide
      have hpos := List.count_pos_iff.mpr (ColumnMapping.blank_mem_selectList hempty)
      have hnone : "count(*)".toList.count ' ' = 0 := by decide
      exact Template.fillTwice_eq_iff hcolumns Template.isOutside_filters_blank (by decide)
        (hnone ▸ hpos.ne) template

/-- A query that answers for every user answers for their number. -/
theorem loadCount_of_listing (r : Repository σ)
    (hsame : (Reading.count .empty).statement r = Reading.users.statement r) {s s' : σ}
    {row : Row} {rows : List Row}
    (hquery : r.source.query (Reading.users.statement r).1 (Reading.users.statement r).2 s =
      (.ok (row :: rows), s')) :
    r.loadUsers s = (.ok ((row :: rows).map Row.record), s') ∧
      r.loadCount .empty s = (countOf [row], s') := by
  have hlisted : r.loadRows (r.search .empty).query (r.search .empty).values none s =
      (.ok (row :: rows), s') := hquery
  rw [← hsame] at hquery
  have hcounted : r.loadRows (r.countStatement .empty).query (r.countStatement .empty).values
      none s = (.ok (row :: rows), s') := hquery
  constructor
  · rw [loadUsers, loadRecords, Session.bind_ok hlisted]
    rfl
  · rw [loadCount, Session.bind_ok hcounted]
    rfl

/-- **When the users are listed and not counted.** Without a count statement of its own, a
directory counts everyone by the statement that lists everyone exactly when its base statement
has no place for a select list; the number is then the first column of the first user. Behind
a plain beginning of the base statement, such as the word `select`, the count selects
`count(*)` exactly when the place for a select list, or that text itself, stands there. -/
theorem count_of_everyone_eq_listing_iff (source : ConnectionSource σ) (t : Templates)
    (m : ColumnMapping) (engine : HashEngine) (dialect : Dialect)
    (allowDelete allowOverwrite : Bool) (h : given? t.count = none) :
    let r : Repository σ := ⟨source, ofTemplates t m engine dialect allowDelete allowOverwrite⟩
    let count := (Reading.count .empty).statement r
    let listing := Reading.users.statement r
    (count = listing ↔ Template.places t.base Template.columns = 0) ∧
      (∀ start rest : String, Template.IsPlain start.toList → t.base = start ++ rest →
        ((start ++ "count(*)").toList <+: count.1.toList ↔
          "{columns}".toList <+: rest.toList ∨ "count(*)".toList <+: rest.toList)) ∧
      (Template.places t.base Template.columns = 0 → ∀ s row rows s',
        source.query listing.1 listing.2 s = (.ok (row :: rows), s') →
          r.loadUsers s = (.ok ((row :: rows).map Row.record), s') ∧
            r.loadCount .empty s = (countOf [row], s')) := by
  intro r count listing
  obtain ⟨hcount, hlisting⟩ : count =
        (String.ofList (Template.fillTwice Template.countList t.base.toList), []) ∧
      listing = (String.ofList (Template.fillTwice m.selectList.toList t.base.toList), []) :=
    statements_of_everyone source t m engine dialect allowDelete allowOverwrite h
  have hsame : count = listing ↔ Template.places t.base Template.columns = 0 := by
    rw [hcount, hlisting, Prod.mk.injEq, String.ofList_inj, ← fillTwice_countList_eq_iff m]
    exact and_iff_left rfl
  refine ⟨hsame, fun start rest hplain hbase => ?_, fun hnone s row rows s' hquery => ?_⟩
  · have hcolumns : Template.placeholder Template.columns.toList = "{columns}".toList := by decide
    rw [hcount, hbase, String.toList_ofList, String.toList_append, String.toList_append,
      Template.fillTwice_plain_append hplain, List.prefix_append_right_inj, ← hcolumns]
    exact Template.count_prefix_fillTwice_iff rest.toList
  · exact loadCount_of_listing r (hsame.mpr hnone) hquery

/-- A base statement that writes out its select list: two users, with the numbers 41 and 42, are
counted as 41. -/
theorem count_of_everyone_eq_listing_written_out :
    let t : Templates :=
      { base := "select user_id, login from users where {filters}", findPasswordHash := "" }
    let row (id login : String) : Row := ⟨[("user_id", some id), ("login", some login)]⟩
    let source : ConnectionSource Unit :=
      ⟨pure (), fun _ _ => pure [row "41" "ALICE", row "42" "BOB"], fun _ _ => pure 0⟩
    let engine : HashEngine := { algorithm := .pbkdf2 }
    let r : Repository Unit := ⟨source, ofTemplates t .empty engine .sqlite false false⟩
    given? t.count = none ∧
      (Reading.count .empty).statement r = Reading.users.statement r ∧
      ¬ "select count(*)".toList <+: ((Reading.count .empty).statement r).1.toList ∧
      r.loadUsers () = (.ok [(row "41" "ALICE").record, (row "42" "BOB").record], ()) ∧
      r.loadCount .empty () = (.ok 41, ()) := by
  intro t row source engine r
  have hgiven : given? t.count = none := rfl
  have hnone : Template.places t.base Template.columns = 0 := by decide +kernel
  have hcounted : countOf [row "41" "ALICE"] = .ok 41 := by decide +kernel
  obtain ⟨hsame, hstart, hread⟩ :=
    count_of_everyone_eq_listing_iff source t .empty engine .sqlite false false hgiven
  obtain ⟨husers, hcount⟩ := hread hnone () (row "41" "ALICE") [row "42" "BOB"] () rfl
  refine ⟨hgiven, hsame.mpr hnone, fun hprefix => ?_, husers, hcount.trans (by rw [hcounted])⟩
  have hbegin := (hstart "select " "user_id, login from users where {filters}" (by decide)
    (by decide +kernel)).mp hprefix
  exact absurd hbegin (by decide)

end RealmDirectory.Repository
