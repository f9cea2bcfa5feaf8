import RealmDirectory.Proofs.Directory.Sending
import RealmDirectory.Proofs.Query.Alignment
import RealmDirectory.Proofs.Query.Lookup

/-!
# The calls of lookups

The statement of a lookup is fixed when a directory is configured, and its value is bound when
the lookup comes, without a look at the statement. A lookup always sends one value. A statement
that is derived from the base statement has one mark in every place for the filter when the
attribute has a column; when it has none, the filter is constant and takes no value.

## Main definitions

* `LookupKey.reading`: the question of a lookup.

## Main results

* `LookupKey.exists_sent`: a lookup sends its statement with one value, or nothing.
* `LookupKey.count_statement`: the marks of a derived lookup.
* `LookupKey.count_marks_lookup`: how many marks and values a derived lookup sends.
-/

namespace RealmDirectory

variable {σ : Type}

/-! ### What is sent -/

namespace LookupKey

/-- The question of a lookup. -/
def reading : LookupKey → String → Reading
  | id => .byId
  | username => .byUsername
  | email => .byEmail

/-- A lookup runs its statement with the one value that is looked up. -/
theorem statement_reading (key : LookupKey) (r : Repository σ) (value : String) :
    (key.reading value).statement r = (key.statement r.queries, [value]) := by
  cases key <;> rfl

/-- **A lookup sends its statement with one value**, or nothing when there is no connection. -/
theorem exists_sent (key : LookupKey) (r : Repository σ) (value : String) (s : σ)
    (log : List Call) :
    ∃ sent, (key.reading value).loaded r.recorded (s, log) =
        ((key.reading value).loaded r s, log ++ sent) ∧
      (sent = [] ∨ sent = [⟨.rows, key.statement r.queries, [value]⟩]) := by
  simp only [Reading.loaded_eq, statement_reading]
  exact r.source.exists_query_recorded (key.statement r.queries) [value] s log

end LookupKey

/-! ### The marks of derived lookups -/

/-- A mark is outside the placeholder for select lists. -/
theorem Template.isOutside_columns_question : IsOutside columns.toList '?' := by decide

/-- A lookup binds the column of its attribute, when there is one. -/
theorem TemplateSet.length_bindings_lookupSelection (m : ColumnMapping) (name value : String) :
    (lookupSelection m name value).bindings.length = if (m.column name).isSome then 1 else 0 := by
  rw [lookupSelection]
  cases hm : m.isEmpty with
  | true =>
      rw [ColumnMapping.column_eq_none hm]
      rfl
  | false => cases m.column name <;> rfl

namespace LookupKey

open TemplateSet

variable {t : Templates} {m : ColumnMapping} {engine : HashEngine} {dialect : Dialect}
  {allowDelete allowOverwrite : Bool}

/-- **The marks of a derived lookup**: those of the base statement, those of the select list in
every place for it, and one in every place for the filter when the attribute has a column. -/
theorem count_statement (key : LookupKey) (h : given? (key.template t) = none)
    (hm : m.Avoids '?') :
    let set := ofTemplates t m engine dialect allowDelete allowOverwrite
    (key.statement set).toList.count '?' =
      t.base.toList.count '?' +
        Template.places t.base Template.columns * m.selectList.toList.count '?' +
        (if (m.column key.name).isSome then Template.places set.baseQuery Template.filters
        else 0) := by
  intro set
  have hbase : set.baseQuery.toList.count '?' = t.base.toList.count '?' +
      Template.places t.base Template.columns * m.selectList.toList.count '?' :=
    Template.count_fill Template.isName_columns Template.isOutside_columns_question _ _
  have hfilter : (key.statement set).toList.count '?' = set.baseQuery.toList.count '?' +
      Template.places set.baseQuery Template.filters *
        (Selection.of m (lookupCriteria key.name)).bindings.length := by
    rw [statement_ofTemplates key h]
    exact CompiledQuery.count_query_compile set.baseQuery hm _
  rw [hfilter, hbase, of_lookupCriteria, length_bindings_lookupSelection]
  cases (m.column key.name).isSome with
  | true => rw [if_pos rfl, if_pos rfl, Nat.mul_one]
  | false => rfl

/-- A plain select list neither takes a place for the filter away nor adds one. -/
theorem places_baseQuery (hempty : m.isEmpty = false) (hm : m.IsPlain)
    (hbase : '\x01' ∉ t.base.toList) :
    Template.places (ofTemplates t m engine dialect allowDelete allowOverwrite).baseQuery
        Template.filters = Template.places t.base Template.filters :=
  Template.places_fill hbase Template.isName_filters Template.isName_columns (by decide)
    (ColumnMapping.isInert_selectList hempty hm) hm.selectList.mark_notMem

/-- **How many marks and values a derived lookup sends.** Whatever is looked up, the lookup
sends its statement with one value. The statement has one mark in every place for the filter
when a column holds the attribute, and none otherwise, besides the marks that attributes bring
into the select list. So with one place for the filter, marks and values are as many exactly
when the attribute has a column. -/
theorem count_marks_lookup (key : LookupKey) (source : ConnectionSource σ)
    (h : given? (key.template t) = none) (hbase : '?' ∉ t.base.toList) (hm : m.Avoids '?') :
    let set := ofTemplates t m engine dialect allowDelete allowOverwrite
    let r : Repository σ := ⟨source, set⟩
    let statement := key.statement set
    let marks := statement.toList.count '?'
    (∀ value s log, ∃ sent,
        (key.reading value).loaded r.recorded (s, log) =
          ((key.reading value).loaded r s, log ++ sent) ∧
        (sent = [] ∨ sent = [⟨.rows, statement, [value]⟩])) ∧
      marks = Template.places t.base Template.columns * m.selectList.toList.count '?' +
        (if (m.column key.name).isSome then Template.places set.baseQuery Template.filters
        else 0) ∧
      (m.IsPlain → '\x01' ∉ t.base.toList → (∀ e ∈ m.entries, '?' ∉ e.1.toList) →
        Template.places t.base Template.filters = 1 →
        marks = if (m.column key.name).isSome then 1 else 0) := by
  intro set r statement marks
  have hown : t.base.toList.count '?' = 0 := List.count_eq_zero.mpr hbase
  have hmarks :=
    calc marks
      _ = t.base.toList.count '?' +
          Template.places t.base Template.columns * m.selectList.toList.count '?' +
          (if (m.column key.name).isSome then Template.places set.baseQuery Template.filters
          else 0) := count_statement key h hm
      _ = Template.places t.base Template.columns * m.selectList.toList.count '?' +
          (if (m.column key.name).isSome then Template.places set.baseQuery Template.filters
          else 0) := by rw [hown, Nat.zero_add]
  refine ⟨fun value s log => key.exists_sent r value s log, hmarks,
    fun hplain hescape hnames hplace => ?_⟩
  have hlist : m.selectList.toList.count '?' = 0 := by
    refine List.count_eq_zero.mpr (ColumnMapping.notMem_selectList (by decide) (by decide) ?_)
    exact fun e he => ⟨hnames e he, ColumnMapping.avoids_iff.mp hm e he⟩
  rw [hmarks, hlist, Nat.mul_zero, Nat.zero_add]
  cases hempty : m.isEmpty with
  | true => rw [ColumnMapping.column_eq_none hempty]; rfl
  | false => rw [places_baseQuery hempty hplain hescape, hplace]

/-- In a directory that holds identifiers only, the lookup by mail address is sent with a value
that no mark takes. -/
theorem count_marks_lookup_unmapped :
    let t : Templates :=
      { base := "select {columns} from users where {filters}", findPasswordHash := "" }
    let m : ColumnMapping := ColumnMapping.parse ["id=user_id"]
    let engine : HashEngine := { algorithm := .pbkdf2 }
    let source : ConnectionSource Unit := ⟨pure (), fun _ _ => pure [], fun _ _ => pure 0⟩
    let set := ofTemplates t m engine .sqlite false false
    let r : Repository Unit := ⟨source, set⟩
    ((given? (id.template t) = none ∧ given? (email.template t) = none) ∧
        '?' ∉ t.base.toList ∧ m.Avoids '?') ∧
      (id.statement set).toList.count '?' = 1 ∧ (email.statement set).toList.count '?' = 0 ∧
      ((email.reading "bob@example.com").loaded r.recorded ((), [])).2 =
        [⟨.rows, "select user_id AS id from users where 1=0", ["bob@example.com"]⟩] := by
  intro t m engine source set r
  have hid : given? (id.template t) = none := rfl
  have hemail : given? (email.template t) = none := rfl
  have hbase : '?' ∉ t.base.toList := by decide
  have hm : m.Avoids '?' := by decide
  have hplain : m.IsPlain := by decide
  have hescape : '\x01' ∉ t.base.toList := by decide
  have hnames : ∀ e ∈ m.entries, '?' ∉ e.1.toList := by decide
  have hplace : Template.places t.base Template.filters = 1 := by decide +kernel
  obtain ⟨-, -, hmapped⟩ := count_marks_lookup id source hid hbase hm
  obtain ⟨-, -, hunmapped⟩ := count_marks_lookup email source hemail hbase hm
  refine ⟨⟨⟨hid, hemail⟩, hbase, hm⟩, ?_, ?_, ?_⟩
  · exact (hmapped hplain hescape hnames hplace).trans (by decide)
  · exact (hunmapped hplain hescape hnames hplace).trans (by decide)
  · decide +kernel

end LookupKey

end RealmDirectory
