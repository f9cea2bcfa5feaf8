import RealmDirectory.Proofs.Query.Numbering
import RealmDirectory.Proofs.Query.Places
import RealmDirectory.Proofs.Query.Rendering

/-!
# Marks and values

A search is sent as a statement with marks and a list of values, and a database takes the
values one by one in the order of the marks. The statement gets its filter in every place of
the template, but the values are listed once. Marks and values are therefore aligned when the
filter has no marks, or when the template has exactly one place for it. A template with several
places runs out of values. One that mentions filters without a place for them leaves values
over: deleting the escapes of a template can join braces that setting the escapes aside keeps
apart.

## Main results

* `CompiledQuery.count_query_compile`: the marks of a search.
* `CompiledQuery.length_values_compile`: the values of a search.
* `CompiledQuery.count_marks_compile`: when there are as many of the one as of the other.
-/

namespace RealmDirectory

/-- A mark is outside the placeholder for search filters. -/
theorem Template.isOutside_filters_question : IsOutside filters.toList '?' := by decide

namespace CompiledQuery

variable {template : String} {m : ColumnMapping} {c : Criteria}

/-- **The marks of a search**: those of the template, and one for each bound column in every
place for the filter. -/
theorem count_query_compile (template : String) (hm : m.Avoids '?') (c : Criteria) :
    (compile template m c).query.toList.count '?' =
      template.toList.count '?' +
        Template.places template Template.filters * (Selection.of m c).bindings.length := by
  rw [query_compile, Template.count_fill Template.isName_filters
    Template.isOutside_filters_question,
    Selection.count_condition (Selection.notMem_of_mem_columns hm)]

/-- **The values of a search**: one for each bound column, or none for a template that does
not mention filters. -/
theorem length_values_compile (template : String) (m : ColumnMapping) (c : Criteria) :
    (compile template m c).values.length =
      if Template.mentions template Template.filters then (Selection.of m c).bindings.length
      else 0 := by
  cases hmentions : Template.mentions template Template.filters with
  | true =>
      rw [compile_of_mentions hmentions, values, Selection.getD_parameters, List.length_map,
        if_pos rfl]
  | false =>
      rw [compile, hmentions]
      rfl

/-- **How many marks and values a search has.** A template without marks of its own gives the
statement one mark for each bound column in every place for the filter. Each bound column has
one value, if the template mentions filters at all. The marks run out of values exactly when
columns are bound and the filter has several places; values are left over exactly when columns
are bound and the template mentions filters without a place for them. Otherwise there are as
many of the one as of the other. -/
theorem count_marks_compile (template : String) (m : ColumnMapping) (c : Criteria)
    (htemplate : '?' ∉ template.toList) (hm : m.Avoids '?') :
    let q := compile template m c
    let marks := q.query.toList.count '?'
    let bound := (Selection.of m c).bindings.length
    let places := Template.places template Template.filters
    marks = places * bound ∧
      q.values.length = (if Template.mentions template Template.filters then bound else 0) ∧
      (q.values.length < marks ↔ 0 < bound ∧ 1 < places) ∧
      (marks < q.values.length ↔
        0 < bound ∧ places = 0 ∧ Template.mentions template Template.filters = true) := by
  intro q marks bound places
  have hmarks : marks = places * bound := by
    have hown : template.toList.count '?' = 0 := List.count_eq_zero.mpr htemplate
    rw [← Nat.zero_add (places * bound), ← hown]
    exact count_query_compile template hm c
  have hvalues : q.values.length =
      if Template.mentions template Template.filters then bound else 0 :=
    length_values_compile template m c
  refine ⟨hmarks, hvalues, ?_⟩
  rw [hmarks, hvalues]
  cases hmentions : Template.mentions template Template.filters with
  | true =>
      rw [if_pos rfl]
      rcases Nat.eq_zero_or_pos bound with hnone | hsome
      · simp [hnone]
      · have hover : bound < places * bound ↔ 1 < places := Nat.lt_mul_iff_one_lt_left hsome
        have hunder : places * bound < bound ↔ places = 0 := by
          refine ⟨fun hless => Nat.eq_zero_of_not_pos fun hplace => ?_, fun hzero => ?_⟩
          · exact absurd (Nat.le_mul_of_pos_left bound hplace) (Nat.not_le.mpr hless)
          · rwa [hzero, Nat.zero_mul]
        exact ⟨by simp [hover, hsome], by simp [hunder, hsome]⟩
  | false =>
      -- A place is mentioned, so a template that mentions none has none.
      have hplaces : places = 0 := by
        refine Nat.eq_zero_of_not_pos fun hpos => ?_
        have hplace := (Template.hasPlace_iff Template.isName_filters).mpr hpos
        rw [Template.mentions_of_hasPlace Template.isName_filters hplace] at hmentions
        cases hmentions
      rw [hplaces]
      simp

/-- The union of two filtered selects has two marks and one value. Braces that meet when the
escape between them is deleted leave a search with a value and no mark. -/
theorem count_marks_compile_misaligned :
    let union := "select login from users where {filters} union " ++
      "select login from admins where {filters}"
    let nested := "select login from users where '{{{filters}}filters}' <> login"
    let m : ColumnMapping := ColumnMapping.parse ["username=login"]
    let c : Criteria := Criteria.withAttribute .empty "username" "bob"
    (('?' ∉ union.toList ∧ '?' ∉ nested.toList) ∧ m.Avoids '?') ∧
      ((compile union m c).query.toList.count '?' = 2 ∧ (compile union m c).values.length = 1) ∧
      (compile nested m c).query.toList.count '?' = 0 ∧ (compile nested m c).values.length = 1 := by
  intro union nested m c
  have hunion : '?' ∉ union.toList := by decide
  have hnested : '?' ∉ nested.toList := by decide
  have hm : m.Avoids '?' := by decide
  obtain ⟨hmarks, hvalues, -⟩ := count_marks_compile union m c hunion hm
  obtain ⟨hmarks', hvalues', -⟩ := count_marks_compile nested m c hnested hm
  refine ⟨⟨⟨hunion, hnested⟩, hm⟩, ⟨hmarks.trans ?_, hvalues.trans ?_⟩,
    hmarks'.trans ?_, hvalues'.trans ?_⟩ <;> decide +kernel

end CompiledQuery

end RealmDirectory
