import RealmDirectory.Proofs.Query.Filling
import RealmDirectory.Query.TemplateSet

/-!
# Lookups of single users

A single user is looked up by an identifier, a name or a mail address. A directory that has
no statement for a lookup derives one from its base statement, as a search for the attribute.
Searches that cannot be narrowed select everyone, and lookups inherit this: without any
column, or without a place for the filter, the derived statement answers every value with
the same users. Otherwise it compares the attribute's column, or selects nobody when the
attribute has no column.

## Main definitions

* `LookupKey`: the attributes by which single users are looked up.
* `TemplateSet.lookupFilter`: the filter of a derived lookup.

## Main results

* `LookupKey.statement_eq`: the statement of a derived lookup.
* `TemplateSet.selects_lookupFilter_iff`: the rows that its filter selects.
* `LookupKey.statement_lookup`: when a derived lookup answers whatever value is looked up.
-/

namespace RealmDirectory

/-- The attributes by which a single user is looked up. -/
inductive LookupKey where
  | id
  | username
  | email
  deriving DecidableEq, Repr

namespace LookupKey

/-- The name of the attribute. -/
def name : LookupKey → String
  | id => "id"
  | username => "username"
  | email => "email"

/-- The template that is configured for the lookup. -/
def template (t : Templates) : LookupKey → Option String
  | id => t.findById
  | username => t.findByUsername
  | email => t.findByEmail

/-- The statement that the lookup runs. -/
def statement (s : TemplateSet) : LookupKey → String
  | id => s.findById
  | username => s.findByUsername
  | email => s.findByEmail

end LookupKey

namespace TemplateSet

open Criteria

variable {m : ColumnMapping}

/-- The filter of a lookup that is derived from the base statement. -/
def lookupFilter (m : ColumnMapping) (name : String) : String :=
  if m.isEmpty then "1=1"
  else
    match m.column name with
    | some column => Selection.comparison true column
    | none => "1=0"

/-- The values that the marks of the filter take. -/
def lookupValues (m : ColumnMapping) (name value : String) : List String :=
  match m.column name with
  | some _ => [value]
  | none => []

/-- The users that a lookup selects. -/
def lookupSelection (m : ColumnMapping) (name value : String) : Selection :=
  if m.isEmpty then .everyone
  else
    match m.column name with
    | some column => .matching .all [(column, value)]
    | none => .nobody

/-! ### The filter of a lookup -/

/-- The filter of a lookup is that of its selection, whatever the value. -/
theorem condition_lookupSelection (m : ColumnMapping) (name value : String) :
    (lookupSelection m name value).condition true = lookupFilter m name := by
  rw [lookupSelection, lookupFilter]
  split
  · rfl
  · cases m.column name with
    | none => rfl
    | some column => exact Selection.condition_singleton .all true (column, value)

/-- The values of a lookup are those of its selection. -/
theorem parameters_lookupSelection (m : ColumnMapping) (name value : String) :
    ((lookupSelection m name value).parameters true).getD [] = lookupValues m name value := by
  rw [lookupSelection, lookupValues]
  cases hm : m.isEmpty with
  | true =>
      rw [ColumnMapping.column_eq_none hm]
      rfl
  | false => cases m.column name <;> rfl

/-- A lookup is an exact search for one attribute. -/
theorem attributes_lookupCriteria (key : LookupKey) :
    (lookupCriteria key.name).attributes = [(key.name, "")] ∧
      (lookupCriteria key.name).isExact = true := by
  cases key <;> decide

/-- **A lookup is compiled as the search for an attribute without a value.** -/
theorem of_lookupCriteria (m : ColumnMapping) (key : LookupKey) :
    Selection.of m (lookupCriteria key.name) = lookupSelection m key.name "" := by
  obtain ⟨hattributes, -⟩ := attributes_lookupCriteria key
  cases hm : m.isEmpty with
  | true => rw [Selection.of_isEmpty hm, lookupSelection, if_pos hm]
  | false =>
      have hattr : (lookupCriteria key.name).HasAttribute :=
        hasAttribute_iff.mpr (hattributes ▸ List.cons_ne_nil _ _)
      rw [Selection.of_attributes hm hattr, Selection.attributeBindings, hattributes,
        lookupSelection, hm, if_neg Bool.false_ne_true, List.filterMap_cons]
      cases m.column key.name <;> rfl

/-- The filter of a lookup is always true exactly when there are no columns. -/
theorem lookupFilter_eq_always_iff {name : String} :
    lookupFilter m name = "1=1" ↔ m.isEmpty = true := by
  rw [lookupFilter]
  cases m.isEmpty with
  | true => exact iff_of_true rfl rfl
  | false =>
      refine iff_of_false ?_ Bool.false_ne_true
      cases m.column name with
      | none => decide
      | some column =>
          intro h
          have hlist := congrArg String.toList h
          simp [Selection.comparison] at hlist

/-- A lookup accepts the rows that have the value, or every row when there are no
columns. -/
theorem accepts_lookupSelection_iff {rules : TextRules} {cells : Cells} {name value : String} :
    (lookupSelection m name value).Accepts rules true cells ↔
      m.isEmpty = true ∨ ∃ column, m.column name = some column ∧
        Meets rules true value (cells column) := by
  rw [lookupSelection]
  cases m.isEmpty with
  | true => exact iff_of_true trivial (Or.inl rfl)
  | false =>
      rw [if_neg Bool.false_ne_true, or_iff_right Bool.false_ne_true]
      cases m.column name with
      | none => simp [Selection.Accepts]
      | some column => simp [Selection.Accepts]

theorem isBound_lookupSelection (m : ColumnMapping) (name value : String) :
    (lookupSelection m name value).IsBound := by
  rw [lookupSelection]
  split
  · trivial
  · cases m.column name with
    | none => trivial
    | some column => exact List.cons_ne_nil _ _

/-- What the columns of a directory avoid is avoided by every lookup. -/
theorem notMem_columns_lookupSelection {d : Char} (hm : m.Avoids d) (name value : String) :
    ∀ column ∈ (lookupSelection m name value).columns, d ∉ column.toList := by
  intro column hcolumn
  rw [lookupSelection] at hcolumn
  split at hcolumn
  · exact absurd hcolumn List.not_mem_nil
  · cases hname : m.column name with
    | none =>
        rw [hname] at hcolumn
        exact absurd hcolumn List.not_mem_nil
    | some found =>
        rw [hname] at hcolumn
        rw [List.mem_singleton.mp hcolumn]
        exact hm name found hname

/-- **The filter of a lookup selects the rows that have the value, or every row when there
are no columns.** -/
theorem selects_lookupFilter_iff (hmark : m.Avoids '?') {rules : TextRules} {cells : Cells}
    {name value : String} :
    Selects rules cells (lookupFilter m name) (lookupValues m name value) ↔
      m.isEmpty = true ∨ ∃ column, m.column name = some column ∧
        Meets rules true value (cells column) := by
  rw [← condition_lookupSelection m name value, ← parameters_lookupSelection m name value,
    Selection.selects_condition_iff (isBound_lookupSelection m name value)
      (notMem_columns_lookupSelection hmark name value)]
  exact accepts_lookupSelection_iff

end TemplateSet

namespace LookupKey

open TemplateSet

variable {t : Templates} {m : ColumnMapping} {engine : HashEngine} {dialect : Dialect}
  {allowDelete allowOverwrite : Bool}

/-- The statement of a lookup without a template is derived from the base statement. -/
theorem statement_ofTemplates (key : LookupKey) (h : given? (key.template t) = none) :
    key.statement (ofTemplates t m engine dialect allowDelete allowOverwrite) =
      (CompiledQuery.compile (Template.withColumns t.base m []) m
        (lookupCriteria key.name)).query := by
  cases key with
  | id | username | email =>
      simp only [template] at h
      simp only [statement, ofTemplates, findFor, h, name]

/-- **A derived lookup is the base statement with the filter of the lookup.** Where there is
no place for it, the base statement stays as every filter leaves it. -/
theorem statement_eq (key : LookupKey) (h : given? (key.template t) = none) :
    key.statement (ofTemplates t m engine dialect allowDelete allowOverwrite) =
      Template.fill (Template.withColumns t.base m []) Template.filters
        (lookupFilter m key.name) := by
  have hexact := (attributes_lookupCriteria key).2
  rw [statement_ofTemplates key h]
  cases hmentions : Template.mentions (Template.withColumns t.base m []) Template.filters with
  | true =>
      rw [CompiledQuery.compile_of_mentions hmentions, hexact, of_lookupCriteria,
        condition_lookupSelection]
  | false =>
      have hplace : Template.hasPlace (Template.withColumns t.base m []) Template.filters =
          false := by
        refine Bool.of_not_eq_true fun hplace => ?_
        rw [Template.mentions_of_hasPlace Template.isName_filters hplace] at hmentions
        cases hmentions
      simp only [CompiledQuery.compile]
      exact (Template.hasPlace_eq_false_iff Template.isName_filters).mp hplace _ _

/-- **When a derived lookup answers whatever value is looked up.** Its filter is always true,
or missing, exactly when the directory has no columns or the base statement has no place for
a filter. Otherwise it selects the rows in which the column of the attribute has the value:
none, when no column holds the attribute. -/
theorem statement_lookup (key : LookupKey) (h : given? (key.template t) = none) :
    let set := ofTemplates t m engine dialect allowDelete allowOverwrite
    let base := set.baseQuery
    let filter := lookupFilter m key.name
    key.statement set = Template.fill base Template.filters filter ∧
      ((filter = "1=1" ∨ ∀ v w,
          Template.fill base Template.filters v = Template.fill base Template.filters w) ↔
        m.isEmpty = true ∨ Template.hasPlace base Template.filters = false) ∧
      (m.Avoids '?' → ∀ rules cells value,
        (Selects rules cells filter (lookupValues m key.name value) ↔
          m.isEmpty = true ∨ ∃ column, m.column key.name = some column ∧
            Meets rules true value (cells column))) := by
  intro set base filter
  refine ⟨statement_eq key h, ?_, fun hmark rules cells value => ?_⟩
  · exact or_congr lookupFilter_eq_always_iff
      (Template.hasPlace_eq_false_iff Template.isName_filters).symm
  · exact selects_lookupFilter_iff hmark

/-- A directory without columns finds someone for every identifier, and one whose base
statement takes no filter finds someone for every mail address. -/
theorem statement_lookup_unguarded :
    let filtered : Templates :=
      { base := "select login from users where {filters}", findPasswordHash := "" }
    let plain : Templates := { base := "select {columns} from users", findPasswordHash := "" }
    let mail := ColumnMapping.parse ["email=mail"]
    let engine : HashEngine := { algorithm := .bcrypt }
    (given? (id.template filtered) = none ∧ given? (email.template plain) = none) ∧
      id.statement (ofTemplates filtered .empty engine .sqlite false false) =
        "select login from users where 1=1" ∧
      email.statement (ofTemplates plain mail engine .sqlite false false) =
        "select mail AS email from users" := by
  intro filtered plain mail engine
  have hid : given? (id.template filtered) = none := rfl
  have hemail : given? (email.template plain) = none := rfl
  refine ⟨⟨hid, hemail⟩, ?_, ?_⟩
  · exact (statement_lookup id hid).1.trans (by decide)
  · exact (statement_lookup email hemail).1.trans (by decide)

end LookupKey

end RealmDirectory
