import RealmDirectory.Proofs.Query.Asking

/-!
# Statements do not show values

The text of a compiled search is determined by the template, the columns and the *shape* of
the search: which attributes it names, or that it looks for a keyword, and whether it
compares exactly. The values themselves reach the database as parameters only, whatever
characters they are made of.

The argument runs through `Selection.outline`, which leaves the values of a selection out:
the filter and the number of parameters are read off the outline, and searches of one shape
have one outline.

## Main result

* `compile_eq_of_alike`: searches of one shape have the same statement and equally many
  parameters.
-/

namespace RealmDirectory

/-- Two searches of one shape: they name the same attributes, or both look for a keyword,
and they compare in the same way. -/
structure Criteria.Alike (c₁ c₂ : Criteria) : Prop where
  names : ∀ name, (∃ value, c₁.Asks name value) ↔ ∃ value, c₂.Asks name value
  exactness : c₁.isExact = c₂.isExact
  purpose : c₁.HasAttribute ∧ c₂.HasAttribute ∨
    (∃ keyword, c₁.SeeksKeyword keyword) ∧ ∃ keyword, c₂.SeeksKeyword keyword

namespace Selection

variable {m : ColumnMapping} {c₁ c₂ : Criteria}

/-- The selection with its values left out. -/
def outline : Selection → Selection
  | matching combination bound =>
      matching combination (bound.map fun e => (e.1, ""))
  | selection => selection

/-- The filter shows the outline. -/
theorem condition_outline (exact : Bool) (s : Selection) :
    s.outline.condition exact = s.condition exact := by
  cases s with
  | everyone | nobody => rfl
  | matching combination bound =>
      simp only [outline, condition, List.map_map, Function.comp_def]

/-- There is one parameter for each column of the outline. -/
theorem length_parameters_outline (exact : Bool) (s : Selection) :
    (s.outline.parameters exact).map List.length =
      (s.parameters exact).map List.length := by
  cases s with
  | everyone | nobody => rfl
  | matching combination bound =>
      simp only [outline, parameters, Option.map_some, List.length_map]

/-- Bindings of the same columns have the same outline. -/
theorem outline_ofBound_eq {b₁ b₂ : Bindings} (h : b₁.columns = b₂.columns)
    (combination : Combination) :
    (ofBound combination b₁).outline = (ofBound combination b₂).outline := by
  have hmap : b₁.map (fun e => (e.1, "")) = b₂.map fun e => (e.1, "") := by
    have hb (b : Bindings) : b.map (fun e => (e.1, "")) = b.columns.map fun d => (d, "") := by
      simp only [Bindings.columns, List.map_map, Function.comp_def]
    rw [hb, hb, h]
  cases b₁ with
  | nil =>
      cases b₂ with
      | nil => rfl
      | cons e r => simp [Bindings.columns] at h
  | cons e r =>
      cases b₂ with
      | nil => simp [Bindings.columns] at h
      | cons e' r' => exact congrArg (matching combination) hmap

/-- Searches that name the same attributes bind the same columns. -/
theorem columns_attributeBindings_eq (h : c₁.Alike c₂) :
    Bindings.columns (bindColumns (attributeBindings m c₁)) =
      Bindings.columns (bindColumns (attributeBindings m c₂)) := by
  have hmem (c : Criteria) (d : String) : d ∈ Bindings.columns (attributeBindings m c) ↔
      ∃ name, (∃ value, c.Asks name value) ∧ m.column name = some d := by
    simp only [Bindings.columns, List.mem_map, Prod.exists, exists_and_right, exists_eq_right,
      mem_attributeBindings]
    tauto
  refine Bindings.columns_bindColumns_eq fun d => ?_
  simp only [hmem, h.names]

/-- Every keyword is bound to the same columns. -/
theorem columns_keywordBindings_eq (keyword₁ keyword₂ : String) :
    Bindings.columns (bindColumns (keywordBindings m keyword₁)) =
      Bindings.columns (bindColumns (keywordBindings m keyword₂)) := by
  refine Bindings.columns_bindColumns_eq fun d => ?_
  simp only [Bindings.columns, List.mem_map, Prod.exists, exists_and_right, exists_eq_right,
    mem_keywordBindings, exists_eq, true_and]

/-- **Searches of one shape have one outline.** -/
theorem outline_of_eq (h : c₁.Alike c₂) (m : ColumnMapping) :
    (of m c₁).outline = (of m c₂).outline := by
  cases hm : m.isEmpty with
  | true => rw [of_isEmpty hm, of_isEmpty hm]
  | false =>
      rcases h.purpose with ⟨h₁, h₂⟩ | ⟨⟨keyword₁, h₁⟩, ⟨keyword₂, h₂⟩⟩
      · rw [of_attributes hm h₁, of_attributes hm h₂]
        exact outline_ofBound_eq (columns_attributeBindings_eq h) .all
      · rw [of_keyword hm h₁, of_keyword hm h₂]
        exact outline_ofBound_eq (columns_keywordBindings_eq keyword₁ keyword₂) .any

end Selection

namespace CompiledQuery

open Criteria Selection

/-- **No value shows in a statement.** Searches of one shape are compiled to the same text,
and their parameters are both absent or equally many, for every template and every choice of
columns. -/
theorem compile_eq_of_alike {c₁ c₂ : Criteria} (h : c₁.Alike c₂) (template : String)
    (m : ColumnMapping) :
    (compile template m c₁).query = (compile template m c₂).query ∧
      (compile template m c₁).params.map List.length =
        (compile template m c₂).params.map List.length := by
  have houtline : (if Template.mentions template Template.filters then of m c₁
      else everyone).outline = (if Template.mentions template Template.filters then of m c₂
      else everyone).outline := by
    split
    · exact outline_of_eq h m
    · rfl
  constructor
  · simp only [compile]
    rw [← condition_outline, houtline, condition_outline, h.exactness]
  · simp only [compile]
    rw [← length_parameters_outline, houtline, length_parameters_outline, h.exactness]

/-- A name that is made of quotes, marks and placeholders is as opaque as a plain one, also
when a second attribute is held by the same column. -/
theorem compile_eq_hostile_name :
    let m := ColumnMapping.parse ["username=login", "nickname=login", "email=mail"]
    let hostile : Criteria := KeyedList.ofList
      [("username", "' or 1=1 -- ? {filters}"), ("nickname", "\x01filters\x01"), ("exact", "true")]
    let plain : Criteria := KeyedList.ofList
      [("exact", " TRUE "), ("nickname", "bo"), ("username", "bob")]
    hostile.Alike plain ∧
      (compile "where {filters}" m hostile).query = (compile "where {filters}" m plain).query ∧
      (compile "where {filters}" m hostile).params.map List.length =
        (compile "where {filters}" m plain).params.map List.length := by
  intro m hostile plain
  have h : hostile.Alike plain :=
    { names := fun name => by
        rw [exists_asks_iff, exists_asks_iff]
        have h₁ : hostile.attributes.map Prod.fst = ["username", "nickname"] := by decide
        have h₂ : plain.attributes.map Prod.fst = ["nickname", "username"] := by decide
        simp only [h₁, h₂, List.mem_cons, List.not_mem_nil, or_false]
        tauto
      exactness := by decide
      purpose := Or.inl ⟨hasAttribute_iff.mpr (by decide), hasAttribute_iff.mpr (by decide)⟩ }
  exact ⟨h, compile_eq_of_alike h _ _⟩

end CompiledQuery

end RealmDirectory
