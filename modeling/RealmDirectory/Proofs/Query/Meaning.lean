import RealmDirectory.Proofs.Query.Filling

/-!
# What searches mean

The meaning of a search is given here by its keys and the columns of the directory, with no
statement in sight: everyone, the users who have every attribute asked for, or the users in
whom a keyword is found. The compiled filter says the same. Read as a where clause on its
own, with the parameters bound to its marks from left to right, it is true on the rows that
the search means, and on no others.

Attributes that no column holds are passed over; when none of those asked for is held by a
column, nobody is meant.

## Main definitions

* `Criteria.Means`: the rows that a search means.

## Main results

* `Selection.accepts_of_iff`: the selection of a search accepts the rows that are meant.
* `CompiledQuery.selects_compile_iff`: the compiled filter selects the rows that are meant.
-/

namespace RealmDirectory

namespace Criteria

/-- The search asks for everyone: there are no columns, or no keys, or no key that asks for
anything in particular. -/
def AsksEveryone (m : ColumnMapping) (c : Criteria) : Prop :=
  m.isEmpty = true ∨ c.isEmpty = true ∨ c.SeeksNothing

/-- What the search asks for can be looked for in some column. -/
def BindsColumn (m : ColumnMapping) (c : Criteria) : Prop :=
  (∃ name value column, c.Asks name value ∧ m.column name = some column) ∨
    ¬ c.HasAttribute ∧ ∃ name ∈ searchable, ∃ column, m.column name = some column

/-- No column is asked to have two values. -/
def AgreesOn (m : ColumnMapping) (c : Criteria) : Prop :=
  ∀ name₁ name₂ value₁ value₂ column, c.Asks name₁ value₁ → c.Asks name₂ value₂ →
    m.column name₁ = some column → m.column name₂ = some column → value₁ = value₂

theorem agreesOn_iff {m : ColumnMapping} {c : Criteria} :
    AgreesOn m c ↔ ∀ e₁ ∈ c.attributes, ∀ e₂ ∈ c.attributes,
      m.column e₁.1 = m.column e₂.1 → (m.column e₁.1).isSome → e₁.2 = e₂.2 := by
  simp only [AgreesOn, Prod.forall, mem_attributes, Option.isSome_iff_exists]
  constructor
  · rintro h name₁ value₁ hasks₁ name₂ value₂ hasks₂ hsame ⟨column, hcolumn⟩
    exact h name₁ name₂ value₁ value₂ column hasks₁ hasks₂ hcolumn (hsame ▸ hcolumn)
  · intro h name₁ name₂ value₁ value₂ column hasks₁ hasks₂ hcolumn₁ hcolumn₂
    exact h name₁ value₁ hasks₁ name₂ value₂ hasks₂ (hcolumn₁.trans hcolumn₂.symm)
      ⟨column, hcolumn₁⟩

instance (m : ColumnMapping) (c : Criteria) : Decidable (AgreesOn m c) :=
  decidable_of_iff _ agreesOn_iff.symm

/-- The row has every attribute that is asked for, as far as columns hold them. -/
def HasAttributes (m : ColumnMapping) (c : Criteria) (rules : TextRules) (cells : Cells) :
    Prop :=
  ∀ name value column, c.Asks name value → m.column name = some column →
    Meets rules (decide c.AsksExact) value (cells column)

/-- The keyword is found in a column that is searched. -/
def HasKeyword (m : ColumnMapping) (c : Criteria) (rules : TextRules) (cells : Cells) : Prop :=
  ∃ keyword, c.get? "search" = some keyword ∧ ∃ name ∈ searchable, ∃ column,
    m.column name = some column ∧ Meets rules (decide c.AsksExact) keyword (cells column)

/-- **The rows that a search means.** -/
def Means (m : ColumnMapping) (c : Criteria) (rules : TextRules) (cells : Cells) : Prop :=
  AsksEveryone m c ∨
    c.HasAttribute ∧ BindsColumn m c ∧ HasAttributes m c rules cells ∨
    ¬ c.HasAttribute ∧ HasKeyword m c rules cells

/-- A search that does not ask for everyone asks for attributes or for a keyword. -/
theorem cases_of_not_asksEveryone {m : ColumnMapping} {c : Criteria}
    (h : ¬ AsksEveryone m c) :
    m.isEmpty = false ∧ (c.HasAttribute ∨ ∃ keyword, c.SeeksKeyword keyword) := by
  refine ⟨Bool.of_not_eq_true fun hm => h (Or.inl hm), ?_⟩
  rcases c.asks_cases with hattr | hkey | hnothing
  · exact Or.inl hattr
  · exact Or.inr hkey
  · exact absurd (Or.inr (Or.inr hnothing)) h

end Criteria

namespace Selection

open Criteria

variable {m : ColumnMapping} {c : Criteria} {rules : TextRules} {cells : Cells}

/-- Values that all have to match accept a row when there are any and it has them all. -/
theorem accepts_ofBound_all {exact : Bool} {b : Bindings} :
    (ofBound .all b).Accepts rules exact cells ↔
      b ≠ [] ∧ ∀ e ∈ b, Meets rules exact e.2 (cells e.1) := by
  cases b with
  | nil => simp [ofBound, Accepts]
  | cons e r => simp [ofBound, Accepts]

/-- Values of which one has to match accept a row that has one. -/
theorem accepts_ofBound_any {exact : Bool} {b : Bindings} :
    (ofBound .any b).Accepts rules exact cells ↔
      ∃ e ∈ b, Meets rules exact e.2 (cells e.1) := by
  cases b with
  | nil => simp [ofBound, Accepts]
  | cons e r => simp [ofBound, Accepts]

/-- There are parameters exactly when something is bound. -/
theorem parameters_ofBound_eq_none_iff {exact : Bool} {word : Combination} {b : Bindings} :
    (ofBound word b).parameters exact = none ↔ b = [] := by
  cases b with
  | nil => simp [ofBound, parameters]
  | cons e r => simp [ofBound, parameters]

theorem of_asksEveryone (h : AsksEveryone m c) : of m c = everyone := by
  rcases h with hm | hc | hnothing
  · exact of_isEmpty hm c
  · simp [of, hc]
  · exact of_seeksNothing hnothing

/-- The attributes asked for bind something when some column holds one of them. -/
theorem attributeBindings_ne_nil_iff (h : c.HasAttribute) :
    attributeBindings m c ≠ [] ↔ BindsColumn m c := by
  constructor
  · intro hne
    obtain ⟨⟨column, value⟩, hmem⟩ := List.exists_mem_of_ne_nil _ hne
    obtain ⟨name, hasks, hcolumn⟩ := mem_attributeBindings.mp hmem
    exact Or.inl ⟨name, value, column, hasks, hcolumn⟩
  · rintro (⟨name, value, column, hasks, hcolumn⟩ | ⟨hnone, -⟩)
    · exact List.ne_nil_of_mem (mem_attributeBindings.mpr ⟨name, hasks, hcolumn⟩)
    · exact absurd h hnone

/-- A keyword binds something when some column is searched. -/
theorem keywordBindings_ne_nil_iff (h : ¬ c.HasAttribute) (keyword : String) :
    keywordBindings m keyword ≠ [] ↔ BindsColumn m c := by
  constructor
  · intro hne
    obtain ⟨⟨column, value⟩, hmem⟩ := List.exists_mem_of_ne_nil _ hne
    obtain ⟨-, name, hname, hcolumn⟩ := mem_keywordBindings.mp hmem
    exact Or.inr ⟨h, name, hname, column, hcolumn⟩
  · rintro (⟨name, value, _, hasks, -⟩ | ⟨-, name, hname, column, hcolumn⟩)
    · exact absurd ⟨name, value, hasks⟩ h
    · exact List.ne_nil_of_mem (mem_keywordBindings.mpr ⟨rfl, name, hname, hcolumn⟩)

/-- **A search has no parameters exactly when it asks for everyone or binds nothing.** -/
theorem parameters_of_eq_none_iff {exact : Bool} :
    (of m c).parameters exact = none ↔ AsksEveryone m c ∨ ¬ BindsColumn m c := by
  by_cases h : AsksEveryone m c
  · rw [of_asksEveryone h]
    exact iff_of_true rfl (Or.inl h)
  · obtain ⟨hm, hattr | ⟨keyword, hkey⟩⟩ := cases_of_not_asksEveryone h
    · rw [of_attributes hm hattr, parameters_ofBound_eq_none_iff,
        Bindings.bindColumns_eq_nil_iff, ← attributeBindings_ne_nil_iff hattr, not_not]
      exact (or_iff_right h).symm
    · rw [of_keyword hm hkey, parameters_ofBound_eq_none_iff,
        Bindings.bindColumns_eq_nil_iff, ← keywordBindings_ne_nil_iff hkey.1 keyword, not_not]
      exact (or_iff_right h).symm

/-- Values on which a search agrees are bound as they are. -/
theorem consistent_attributeBindings (h : AgreesOn m c) :
    Bindings.Consistent (attributeBindings m c) := by
  intro column v w hv hw
  obtain ⟨name₁, hasks₁, hcolumn₁⟩ := mem_attributeBindings.mp hv
  obtain ⟨name₂, hasks₂, hcolumn₂⟩ := mem_attributeBindings.mp hw
  exact h name₁ name₂ v w column hasks₁ hasks₂ hcolumn₁ hcolumn₂

/-- A search for attributes accepts the rows that have them, if any column holds one. -/
theorem accepts_attributes_iff (h : AgreesOn m c) (hattr : c.HasAttribute) :
    (ofBound .all (bindColumns (attributeBindings m c))).Accepts rules c.isExact cells ↔
      BindsColumn m c ∧ HasAttributes m c rules cells := by
  have hne : bindColumns (attributeBindings m c) ≠ [] ↔ BindsColumn m c :=
    (not_congr Bindings.bindColumns_eq_nil_iff).trans (attributeBindings_ne_nil_iff hattr)
  rw [accepts_ofBound_all, hne, isExact_eq_decide]
  simp only [Bindings.mem_bindColumns (consistent_attributeBindings h), Prod.forall,
    mem_attributeBindings]
  refine and_congr_right fun _ => ?_
  constructor
  · intro hall name value column hasks hcolumn
    exact hall column value ⟨name, hasks, hcolumn⟩
  · rintro hall column value ⟨name, hasks, hcolumn⟩
    exact hall name value column hasks hcolumn

/-- A search for a keyword accepts the rows in which a searched column has it. -/
theorem accepts_keyword_iff {keyword : String} (hkey : c.SeeksKeyword keyword) :
    (ofBound .any (bindColumns (keywordBindings m keyword))).Accepts rules c.isExact cells ↔
      HasKeyword m c rules cells := by
  rw [accepts_ofBound_any, isExact_eq_decide]
  simp only [Prod.exists, mem_bindColumns_keywordBindings]
  constructor
  · rintro ⟨column, _, ⟨rfl, name, hname, hcolumn⟩, hmeets⟩
    exact ⟨_, hkey.2.1, name, hname, column, hcolumn, hmeets⟩
  · rintro ⟨keyword', hkeyword, name, hname, column, hcolumn, hmeets⟩
    obtain rfl := Option.some.inj (hkey.2.1.symm.trans hkeyword)
    exact ⟨column, keyword, ⟨rfl, name, hname, hcolumn⟩, hmeets⟩

/-- **The selection of a search accepts the rows that the search means.** -/
theorem accepts_of_iff (h : AgreesOn m c) :
    (of m c).Accepts rules c.isExact cells ↔ c.Means m rules cells := by
  by_cases heveryone : AsksEveryone m c
  · rw [of_asksEveryone heveryone]
    exact iff_of_true trivial (Or.inl heveryone)
  · obtain ⟨hm, hattr | ⟨keyword, hkey⟩⟩ := cases_of_not_asksEveryone heveryone
    · rw [of_attributes hm hattr, accepts_attributes_iff h hattr]
      simp only [Means, heveryone, hattr, true_and, not_true, false_and, false_or, or_false]
    · rw [of_keyword hm hkey, accepts_keyword_iff hkey]
      simp only [Means, heveryone, hkey.1, not_false_iff, true_and, false_and, false_or]

end Selection

namespace CompiledQuery

open Criteria Selection

/-- **The filter of a search says what the search means.** What stands in a statement in the
place of the placeholder is a where clause on its own. With the parameters bound to its
marks it selects the rows that the search means, whatever the database takes for the upper
case of a text; and there are no parameters exactly when everyone or nobody is meant. -/
theorem selects_compile_iff {m : ColumnMapping} {c : Criteria} {pre post : String}
    (hmark : m.Avoids '?') (hescape : m.Avoids '\x01') (hagrees : AgreesOn m c)
    (hpre : Template.IsPlain pre.toList) (hpost : Template.IsPlain post.toList) :
    ∃ filter, (compile (pre ++ "{filters}" ++ post) m c).query = pre ++ filter ++ post ∧
      ((compile (pre ++ "{filters}" ++ post) m c).params = none ↔
        AsksEveryone m c ∨ ¬ BindsColumn m c) ∧
      ∀ rules cells, Selects rules cells filter (compile (pre ++ "{filters}" ++ post) m c).values ↔
        c.Means m rules cells := by
  have hfilter := query_compile_alone hescape c
  have hparams : (compile "{filters}" m c).params = (of m c).parameters c.isExact := by
    rw [compile_alone]
  refine ⟨(of m c).condition c.isExact, ?_, ?_, fun rules cells => ?_⟩
  · rw [compile_around hpre hpost, hfilter]
  · rw [compile_around hpre hpost, hparams]
    exact parameters_of_eq_none_iff
  · rw [compile_around hpre hpost, CompiledQuery.values, hparams,
      selects_condition_iff (isBound_of m c) (notMem_of_mem_columns hmark)]
    exact accepts_of_iff hagrees

/-- Two attributes that one column holds are looked for together when they should have the
same value, and the keyword next to them does not count. -/
theorem selects_compile_shared_column :
    let m := ColumnMapping.parse ["username=login", "nickname=login", "email=mail", "id=(a OR b)"]
    let c : Criteria := KeyedList.ofList
      [("username", "BOB"), ("search", "al"), ("nickname", "BOB"), ("exact", "true")]
    (m.Avoids '?' ∧ m.Avoids '\x01' ∧ AgreesOn m c ∧
      Template.IsPlain "where ".toList ∧ Template.IsPlain " order by 1".toList) ∧
    ∃ filter, (compile ("where " ++ "{filters}" ++ " order by 1") m c).query =
        "where " ++ filter ++ " order by 1" ∧
      ((compile ("where " ++ "{filters}" ++ " order by 1") m c).params = none ↔
        AsksEveryone m c ∨ ¬ BindsColumn m c) ∧
      ∀ rules cells, Selects rules cells filter
          (compile ("where " ++ "{filters}" ++ " order by 1") m c).values ↔
        c.Means m rules cells := by
  intro m c
  have hmark : m.Avoids '?' := by decide
  have hescape : m.Avoids '\x01' := by decide
  have hagrees : AgreesOn m c := by decide
  have hpre : Template.IsPlain "where ".toList := ⟨by decide, by decide, by decide⟩
  have hpost : Template.IsPlain " order by 1".toList := ⟨by decide, by decide, by decide⟩
  exact ⟨⟨hmark, hescape, hagrees, hpre, hpost⟩,
    selects_compile_iff hmark hescape hagrees hpre hpost⟩

end CompiledQuery

end RealmDirectory
