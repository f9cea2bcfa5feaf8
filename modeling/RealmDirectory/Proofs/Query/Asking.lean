import RealmDirectory.Proofs.Query.Binding
import RealmDirectory.Proofs.Text.Trimming

/-!
# What a search asks for

The keys of a search say which of three things it asks for: users whose attributes have
certain values, users in whom a keyword is found, or everyone. They say as well whether values
are compared as a whole. This module names all of this in terms of the keys and their values
alone, and gives for each of the three the selection that a search becomes.

## Main definitions

* `Criteria.Asks`, `Criteria.SeeksKeyword`, `Criteria.SeeksNothing`: what a search asks for.
* `Criteria.AsksExact`: whether it asks for exact comparison.

## Main results

* `Criteria.isExact_iff`, `Criteria.keyword?_eq`, `Criteria.isControl_eq_false_iff`: the
  keys that control a search, and what they say.
* `Criteria.asks_cases`: every search asks for one of the three.
* `Selection.of_attributes`, `Selection.of_keyword`, `Selection.of_seeksNothing`: the
  selection of a search that asks for attributes, for a keyword, or for everyone.
* `mem_attributeBindings`, `mem_keywordBindings`: what is bound to the columns.
* `isBound_of`, `notMem_of_mem_columns`: what the columns of a search are.
-/

namespace RealmDirectory

namespace Criteria

variable {c : Criteria}

/-- The search wants the attribute `name` to have a value. -/
def Asks (c : Criteria) (name value : String) : Prop :=
  c.get? name = some value ∧ name ≠ "search" ∧ name ≠ "exact"

/-- The search wants some attribute to have a value. -/
def HasAttribute (c : Criteria) : Prop := ∃ name value, c.Asks name value

/-- A keyword that stands for everyone: blank, or a star between blanks. -/
def IsWildcard (keyword : String) : Prop := Text.trim keyword = "" ∨ Text.trim keyword = "*"

/-- The search names no attribute, and looks for a keyword. -/
def SeeksKeyword (c : Criteria) (keyword : String) : Prop :=
  ¬ c.HasAttribute ∧ c.get? "search" = some keyword ∧ ¬ IsWildcard keyword

/-- The search names no attribute and has no keyword to look for. -/
def SeeksNothing (c : Criteria) : Prop :=
  ¬ c.HasAttribute ∧ ∀ keyword, c.get? "search" = some keyword → IsWildcard keyword

/-- The search asks for exact comparison: the value of `exact` is the word `true` between blanks,
in capital or small letters. -/
def AsksExact (c : Criteria) : Prop :=
  ∃ value, c.get? "exact" = some value ∧ ∃ before written behind,
    value.toList = before ++ (written ++ behind) ∧
      written.map Char.toLower = ['t', 'r', 'u', 'e'] ∧
      (∀ d ∈ before, Text.isBlank d = true) ∧ ∀ d ∈ behind, Text.isBlank d = true

/-! ### The keys that control a search -/

/-- **Values are compared as a whole** exactly when the search asks for it. -/
theorem isExact_iff : c.isExact = true ↔ c.AsksExact := by
  have hword : ∀ d ∈ "true".toList, Text.isBlank d.toLower = false :=
    List.forall_iff_forall_mem.mp (by decide)
  rw [isExact, exactKey, AsksExact]
  cases c.get? "exact" with
  | none => exact ⟨nofun, fun ⟨_, h, _⟩ => nomatch h⟩
  | some value =>
      simp only [Option.some.injEq, exists_eq_left']
      exact Text.sameLetters_trim_iff hword

instance (c : Criteria) : Decidable c.AsksExact := decidable_of_iff _ isExact_iff

theorem isExact_eq_decide (c : Criteria) : c.isExact = decide c.AsksExact :=
  Bool.eq_iff_iff.mpr (isExact_iff.trans decide_eq_true_iff.symm)

/-- The keyword of a search is the value of `search`. -/
theorem keyword?_eq (c : Criteria) : c.keyword? = c.get? "search" := rfl

theorem isControl_eq_false_iff {name : String} :
    isControl name = false ↔ name ≠ "search" ∧ name ≠ "exact" := by
  simp only [isControl, searchKey, exactKey, Bool.or_eq_false_iff, beq_eq_false_iff_ne]

/-! ### What a search asks for -/

theorem mem_attributes {name value : String} :
    (name, value) ∈ c.attributes ↔ c.Asks name value := by
  simp only [attributes, List.mem_filter, Asks, KeyedList.get?_eq_some_iff,
    Bool.not_eq_true', isControl_eq_false_iff]

/-- A search has an attribute exactly when the list of its attributes is not empty. -/
theorem hasAttribute_iff : c.HasAttribute ↔ c.attributes ≠ [] := by
  constructor
  · rintro ⟨name, value, h⟩
    exact List.ne_nil_of_mem (mem_attributes.mpr h)
  · intro h
    obtain ⟨⟨name, value⟩, hmem⟩ := List.exists_mem_of_ne_nil _ h
    exact ⟨name, value, mem_attributes.mp hmem⟩

/-- The attributes that a search names are those in the list of its attributes. -/
theorem exists_asks_iff {name : String} :
    (∃ value, c.Asks name value) ↔ name ∈ c.attributes.map Prod.fst := by
  simp only [List.mem_map, Prod.exists, exists_and_right, exists_eq_right, mem_attributes]

/-- A search with an attribute has keys. -/
theorem HasAttribute.isEmpty_eq_false (h : c.HasAttribute) : c.isEmpty = false := by
  obtain ⟨name, value, hget, -⟩ := h
  have hmem := KeyedList.get?_eq_some_iff.mp hget
  exact List.isEmpty_eq_false_iff.mpr (List.ne_nil_of_mem hmem)

/-- A search with a keyword has keys. -/
theorem isEmpty_eq_false_of_keyword {keyword : String} (h : c.get? "search" = some keyword) :
    c.isEmpty = false :=
  List.isEmpty_eq_false_iff.mpr (List.ne_nil_of_mem (KeyedList.get?_eq_some_iff.mp h))

theorem isWildcard_iff {keyword : String} :
    isWildcard keyword = true ↔ IsWildcard keyword := by
  have hnil : Text.trim keyword = "" ↔ Text.strip keyword.toList = [] := by
    rw [← String.toList_inj, Text.trim, String.toList_ofList]
    rfl
  have hstar : Text.trim keyword = "*" ↔ Text.strip keyword.toList = ['*'] := by
    rw [← String.toList_inj, Text.trim, String.toList_ofList]
    rfl
  simp only [isWildcard, IsWildcard, Bool.or_eq_true, beq_iff_eq, hnil, hstar]

/-- **Every search asks for attributes, for a keyword, or for nothing in particular.** -/
theorem asks_cases (c : Criteria) :
    c.HasAttribute ∨ (∃ keyword, c.SeeksKeyword keyword) ∨ c.SeeksNothing := by
  by_cases hattr : c.HasAttribute
  · exact Or.inl hattr
  · by_cases hkey : ∃ keyword, c.get? "search" = some keyword ∧ ¬ IsWildcard keyword
    · obtain ⟨keyword, hk, hw⟩ := hkey
      exact Or.inr (Or.inl ⟨keyword, hattr, hk, hw⟩)
    · refine Or.inr (Or.inr ⟨hattr, fun keyword hk => ?_⟩)
      by_contra hw
      exact hkey ⟨keyword, hk, hw⟩

end Criteria

/-- No column of a directory holds a character. -/
def ColumnMapping.Avoids (m : ColumnMapping) (d : Char) : Prop :=
  ∀ name column, m.column name = some column → d ∉ column.toList

/-- A directory without columns holds no attribute. -/
theorem ColumnMapping.column_eq_none {m : ColumnMapping} (h : m.isEmpty = true)
    (name : String) : m.column name = none := by
  have hentries : m.entries = [] := List.isEmpty_iff.mp h
  rw [column, Option.eq_none_iff_forall_ne_some]
  intro d hd
  have hmem := KeyedList.get?_eq_some_iff.mp hd
  rw [hentries] at hmem
  exact List.not_mem_nil hmem

theorem ColumnMapping.avoids_iff {m : ColumnMapping} {d : Char} :
    m.Avoids d ↔ ∀ e ∈ m.entries, d ∉ e.2.toList := by
  simp only [Avoids, column, KeyedList.get?_eq_some_iff, Prod.forall]

instance (m : ColumnMapping) (d : Char) : Decidable (m.Avoids d) :=
  decidable_of_iff _ ColumnMapping.avoids_iff.symm

namespace Selection

open Criteria

variable {m : ColumnMapping} {c : Criteria}

/-! ### The selection of a search -/

/-- A directory without columns gives every search everyone. -/
theorem of_isEmpty (h : m.isEmpty = true) (c : Criteria) : of m c = everyone := by
  simp [of, h]

/-- A search for attributes binds their values, and all of them have to match. -/
theorem of_attributes (hm : m.isEmpty = false) (h : c.HasAttribute) :
    of m c = ofBound .all (bindColumns (attributeBindings m c)) := by
  have hattr : c.attributes.isEmpty = false :=
    List.isEmpty_eq_false_iff.mpr (hasAttribute_iff.mp h)
  simp [of, hm, h.isEmpty_eq_false, hattr]

/-- A search for a keyword binds it to the searched columns, and one match is enough. -/
theorem of_keyword {keyword : String} (hm : m.isEmpty = false) (h : c.SeeksKeyword keyword) :
    of m c = ofBound .any (bindColumns (keywordBindings m keyword)) := by
  obtain ⟨hattr, hk, hw⟩ := h
  have hattr : c.attributes = [] := by
    by_contra hne
    exact hattr (hasAttribute_iff.mpr hne)
  have hw : Criteria.isWildcard keyword = false :=
    Bool.of_not_eq_true fun h => hw (isWildcard_iff.mp h)
  simp [of, hm, isEmpty_eq_false_of_keyword hk, hattr, keyword?_eq, hk, hw]

/-- A search for nothing in particular asks for everyone. -/
theorem of_seeksNothing (h : c.SeeksNothing) : of m c = everyone := by
  obtain ⟨hattr, hkey⟩ := h
  have hattr : c.attributes = [] := by
    by_contra hne
    exact hattr (hasAttribute_iff.mpr hne)
  cases hk : c.get? "search" with
  | none => simp [of, hattr, keyword?_eq, hk]
  | some keyword => simp [of, hattr, keyword?_eq, hk, isWildcard_iff.mpr (hkey keyword hk)]

/-! ### What is bound -/

/-- A value is bound to a column when an attribute that the column holds should have it. -/
theorem mem_attributeBindings {column value : String} :
    (column, value) ∈ attributeBindings m c ↔
      ∃ name, c.Asks name value ∧ m.column name = some column := by
  simp only [attributeBindings, List.mem_filterMap, Option.map_eq_some_iff]
  constructor
  · rintro ⟨⟨name, v⟩, hmem, d, hd, heq⟩
    obtain ⟨rfl, rfl⟩ := Prod.mk.inj heq
    exact ⟨name, mem_attributes.mp hmem, hd⟩
  · rintro ⟨name, hasks, hd⟩
    exact ⟨(name, value), mem_attributes.mpr hasks, column, hd, rfl⟩

/-- The keyword is bound to the columns of the attributes in which it is looked for. -/
theorem mem_keywordBindings {keyword column value : String} :
    (column, value) ∈ keywordBindings m keyword ↔
      value = keyword ∧ ∃ name ∈ searchable, m.column name = some column := by
  simp only [keywordBindings, List.mem_filterMap, ColumnMapping.column,
    KeyedList.get?_eq_some_iff]
  constructor
  · rintro ⟨⟨name, d⟩, hmem, hif⟩
    split at hif
    · next hs =>
        obtain ⟨rfl, rfl⟩ := Prod.mk.inj (Option.some.inj hif)
        exact ⟨rfl, name, List.contains_iff_mem.mp hs, hmem⟩
    · exact absurd hif (by simp)
  · rintro ⟨rfl, name, hs, hmem⟩
    exact ⟨(name, column), hmem, by rw [if_pos (List.contains_iff_mem.mpr hs)]⟩

/-- A keyword is one value for all columns. -/
theorem consistent_keywordBindings (m : ColumnMapping) (keyword : String) :
    Bindings.Consistent (keywordBindings m keyword) := by
  intro column v w hv hw
  rw [(mem_keywordBindings.mp hv).1, (mem_keywordBindings.mp hw).1]

/-- A keyword is bound to every column that is searched. -/
theorem mem_bindColumns_keywordBindings {keyword column value : String} :
    (column, value) ∈ bindColumns (keywordBindings m keyword) ↔
      value = keyword ∧ ∃ name ∈ searchable, m.column name = some column :=
  (Bindings.mem_bindColumns (consistent_keywordBindings m keyword)).trans mem_keywordBindings

/-! ### The columns of a selection -/

/-- The columns to which a selection binds values. -/
def columns : Selection → List String
  | matching _ bound => Bindings.columns bound
  | _ => []

/-- Something is bound when values have to match. -/
def IsBound : Selection → Prop
  | matching _ bound => bound ≠ []
  | _ => True

theorem isBound_ofBound (combination : Combination) (b : Bindings) :
    (ofBound combination b).IsBound := by
  cases b with
  | nil => trivial
  | cons e r => exact List.cons_ne_nil e r

theorem columns_ofBound (combination : Combination) (b : Bindings) :
    (ofBound combination b).columns = b.columns := by
  cases b <;> rfl

/-- **A search never asks for a match of no values.** -/
theorem isBound_of (m : ColumnMapping) (c : Criteria) : (of m c).IsBound := by
  cases hm : m.isEmpty with
  | true => rw [of_isEmpty hm]; trivial
  | false =>
      rcases c.asks_cases with h | ⟨keyword, h⟩ | h
      · rw [of_attributes hm h]
        exact isBound_ofBound _ _
      · rw [of_keyword hm h]
        exact isBound_ofBound _ _
      · rw [of_seeksNothing h]
        trivial

/-- The columns of a search are columns of the directory. -/
theorem exists_column_of_mem_columns {d : String} (h : d ∈ (of m c).columns) :
    ∃ name, m.column name = some d := by
  cases hm : m.isEmpty with
  | true =>
      rw [of_isEmpty hm] at h
      exact absurd h List.not_mem_nil
  | false =>
      rcases c.asks_cases with hc | ⟨keyword, hc⟩ | hc
      · rw [of_attributes hm hc, columns_ofBound, Bindings.mem_columns_bindColumns] at h
        obtain ⟨⟨_, value⟩, hmem, rfl⟩ := List.mem_map.mp h
        obtain ⟨name, -, hname⟩ := mem_attributeBindings.mp hmem
        exact ⟨name, hname⟩
      · rw [of_keyword hm hc, columns_ofBound, Bindings.mem_columns_bindColumns] at h
        obtain ⟨⟨_, value⟩, hmem, rfl⟩ := List.mem_map.mp h
        obtain ⟨-, name, -, hname⟩ := mem_keywordBindings.mp hmem
        exact ⟨name, hname⟩
      · rw [of_seeksNothing hc] at h
        exact absurd h List.not_mem_nil

/-- What the columns of a directory avoid is avoided by every search. -/
theorem notMem_of_mem_columns {d : Char} (hm : m.Avoids d) :
    ∀ column ∈ (of m c).columns, d ∉ column.toList := by
  intro column hcolumn
  obtain ⟨name, hname⟩ := exists_column_of_mem_columns hcolumn
  exact hm name column hname

end Selection

end RealmDirectory
