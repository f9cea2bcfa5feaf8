import RealmDirectory.Directory.Repository
import RealmDirectory.Proofs.Query.Filling
import RealmDirectory.Proofs.Query.OnePass

/-!
# Search statements from raw templates

The statement of a search is filled in two stages: the select list when the directory is
configured, and the filter when the search comes. Neither stage reads what the other one put
in, so the statement is the raw template of the directory, read once from left to right.

## Main results

* `ColumnMapping.isInert_selectList`, `Selection.isInert_condition`: no placeholder can be made
  of a select list or of a filter.
* `CompiledQuery.query_compile`: the statement of a search gets its filter, whether the template
  has a place for it or not.
* `Repository.query_search_eq`: the statement of a search in one pass, and in either order of
  the two stages.
-/

namespace RealmDirectory

open Template (IsInert)

/-- A text is plain when three characters are not in it. -/
instance (s : List Char) : Decidable (Template.IsPlain s) :=
  decidable_of_iff ('{' ∉ s ∧ '}' ∉ s ∧ '\x01' ∉ s)
    ⟨fun ⟨h₁, h₂, h₃⟩ => ⟨h₁, h₂, h₃⟩, fun ⟨h₁, h₂, h₃⟩ => ⟨h₁, h₂, h₃⟩⟩

/-! ### Select lists -/

/-- The placeholder for select lists has a proper name. -/
theorem Template.isName_columns : IsName columns.toList := by decide

/-- Joined texts hold no character that neither they nor the separator hold. -/
theorem Text.notMem_join {x : Char} {separator : String} (hseparator : x ∉ separator.toList)
    {l : List String} (hl : ∀ s ∈ l, x ∉ s.toList) : x ∉ (join separator l).toList := by
  induction l with
  | nil => exact List.not_mem_nil
  | cons s l ih =>
      have hs := hl s List.mem_cons_self
      have hrest := ih fun s' hs' => hl s' (List.mem_cons_of_mem s hs')
      cases l with
      | nil => simpa [join] using hs
      | cons s' l =>
          have hsplit : join separator (s :: s' :: l) =
              s ++ separator ++ join separator (s' :: l) := String.intercalate_cons_cons
          rw [hsplit, String.toList_append, String.toList_append]
          exact List.not_mem_append (List.not_mem_append hs hseparator) hrest

namespace ColumnMapping

variable {m : ColumnMapping}

/-- No attribute and no column of a directory holds a brace or the mark of an escape. -/
def IsPlain (m : ColumnMapping) : Prop :=
  ∀ e ∈ m.entries, Template.IsPlain e.1.toList ∧ Template.IsPlain e.2.toList

theorem IsPlain.avoids_open (h : m.IsPlain) : m.Avoids '{' :=
  avoids_iff.mpr fun e he => (h e he).2.open_notMem

theorem IsPlain.avoids_close (h : m.IsPlain) : m.Avoids '}' :=
  avoids_iff.mpr fun e he => (h e he).2.close_notMem

theorem IsPlain.avoids_mark (h : m.IsPlain) : m.Avoids '\x01' :=
  avoids_iff.mpr fun e he => (h e he).2.mark_notMem

instance (m : ColumnMapping) : Decidable m.IsPlain := List.decidableBAll _ _

/-- A select list holds no character that its attributes and columns do not hold, apart from
those between them. -/
theorem notMem_selectList {x : Char} (hcomma : x ∉ ", ".toList) (has : x ∉ " AS ".toList)
    (h : ∀ e ∈ m.entries, x ∉ e.1.toList ∧ x ∉ e.2.toList) : x ∉ m.selectList.toList := by
  refine Text.notMem_join hcomma fun s hs => ?_
  obtain ⟨e, he, rfl⟩ := List.mem_map.mp hs
  rw [String.toList_append, String.toList_append]
  exact List.not_mem_append (List.not_mem_append (h e he).2 has) (h e he).1

/-- Plain attributes and columns make a plain select list. -/
theorem IsPlain.selectList (h : m.IsPlain) : Template.IsPlain m.selectList.toList where
  open_notMem := notMem_selectList (by decide) (by decide) fun e he =>
    ⟨(h e he).1.open_notMem, (h e he).2.open_notMem⟩
  close_notMem := notMem_selectList (by decide) (by decide) fun e he =>
    ⟨(h e he).1.close_notMem, (h e he).2.close_notMem⟩
  mark_notMem := notMem_selectList (by decide) (by decide) fun e he =>
    ⟨(h e he).1.mark_notMem, (h e he).2.mark_notMem⟩

/-- The select list of a directory with columns has a blank. -/
theorem blank_mem_selectList (hm : m.isEmpty = false) : ' ' ∈ m.selectList.toList := by
  have hentries : m.entries ≠ [] := List.isEmpty_eq_false_iff.mp hm
  obtain ⟨e, l, hl⟩ := List.exists_cons_of_ne_nil hentries
  have hfirst (s : String) : ' ' ∈ (e.2 ++ " AS " ++ e.1 ++ s).toList := by
    simp only [String.toList_append]
    simp
  cases l with
  | nil =>
      have hlist : m.selectList = e.2 ++ " AS " ++ e.1 ++ "" := by
        rw [ColumnMapping.selectList, hl]
        simp [Text.join]
      exact hlist ▸ hfirst ""
  | cons e' l =>
      have hlist : m.selectList = e.2 ++ " AS " ++ e.1 ++
          (", " ++ Text.join ", " ((e' :: l).map fun e => e.2 ++ " AS " ++ e.1)) := by
        rw [ColumnMapping.selectList, hl, ← String.append_assoc]
        exact String.intercalate_cons_cons
      exact hlist ▸ hfirst _

/-- **No placeholder for filters can be made of a select list.** -/
theorem isInert_selectList (hm : m.isEmpty = false) (h : m.IsPlain) :
    IsInert Template.filters.toList m.selectList.toList where
  open_notMem := h.selectList.open_notMem
  close_notMem := h.selectList.close_notMem
  exists_notMem := ⟨' ', blank_mem_selectList hm, by decide⟩

end ColumnMapping

/-! ### Filters -/

namespace Selection

/-- A filter has a blank or an equals sign, which are in no placeholder for select lists. -/
theorem exists_mem_condition {s : Selection} (h : s.IsBound) (exact : Bool) :
    ∃ d ∈ (s.condition exact).toList, d ∉ Template.columns.toList := by
  match s, h with
  | everyone, _ => exact ⟨'=', by simp [condition], by decide⟩
  | nobody, _ => exact ⟨'=', by simp [condition], by decide⟩
  | matching word (e :: l), _ =>
      obtain ⟨v, hv⟩ := Clause.exists_condition_eq word exact e l
      exact ⟨' ', hv ▸ List.mem_cons_self, by decide⟩

/-- **No placeholder for select lists can be made of a filter.** -/
theorem isInert_condition {m : ColumnMapping} (h : m.IsPlain) (c : Criteria) :
    IsInert Template.columns.toList ((of m c).condition c.isExact).toList where
  open_notMem := notMem_condition (by decide) (notMem_of_mem_columns h.avoids_open) _
  close_notMem := notMem_condition (by decide) (notMem_of_mem_columns h.avoids_close) _
  exists_notMem := exists_mem_condition (isBound_of m c) _

end Selection

/-! ### Search statements -/

/-- **The statement of a search gets its filter**: a template that has no place for filters
looks the same with every filter. -/
theorem CompiledQuery.query_compile (template : String) (m : ColumnMapping) (c : Criteria) :
    (compile template m c).query =
      Template.fill template Template.filters ((Selection.of m c).condition c.isExact) := by
  cases hmentions : Template.mentions template Template.filters with
  | true => rw [compile_of_mentions hmentions]
  | false =>
      have hplace : Template.hasPlace template Template.filters = false := by
        cases hplace : Template.hasPlace template Template.filters with
        | false => rfl
        | true =>
            rw [Template.mentions_of_hasPlace Template.isName_filters hplace] at hmentions
            cases hmentions
      exact (Template.hasPlace_eq_false_iff Template.isName_filters).mp hplace _ _

namespace Repository

variable {σ : Type}

/-- **The statement of a search is its raw template, read once from left to right**: an escape
of either placeholder becomes the placeholder's text, the placeholder for select lists becomes
the list of all mapped columns, the placeholder for filters becomes the filter of the search,
and every other character is copied. Filling the filter first and the select list afterwards
comes to the same. -/
theorem query_search_eq (source : ConnectionSource σ) (t : Templates) (m : ColumnMapping)
    (engine : HashEngine) (dialect : Dialect) (allowDelete allowOverwrite : Bool) (c : Criteria)
    (hbase : '\x01' ∉ t.base.toList) (hempty : m.isEmpty = false) (hm : m.IsPlain) :
    let r : Repository σ :=
      ⟨source, TemplateSet.ofTemplates t m engine dialect allowDelete allowOverwrite⟩
    let list : Template.Filling := ⟨Template.columns.toList, m.selectList.toList⟩
    let filter : Template.Filling :=
      ⟨Template.filters.toList, ((Selection.of m c).condition c.isExact).toList⟩
    (r.search c).query.toList = Template.fillAll [list, filter] t.base.toList ∧
      (r.search c).query =
        Template.withColumns (CompiledQuery.compile t.base m c).query m [] := by
  intro r list filter
  have hlist := hm.selectList.mark_notMem
  have hfilter := Selection.notMem_condition (s := Selection.of m c) (by decide)
    (Selection.notMem_of_mem_columns hm.avoids_mark) c.isExact
  have hne : Template.columns ≠ Template.filters := by decide
  have hne' : list.name ≠ filter.name := fun h => hne (String.toList_inj.mp h)
  have hpair : Template.AreSeparate [list, filter] :=
    .pair Template.isName_columns Template.isName_filters hne'
  have hswapped : Template.AreSeparate [filter, list] :=
    .pair Template.isName_filters Template.isName_columns hne'.symm
  have hsearch : (r.search c).query.toList = Template.fillAll [list, filter] t.base.toList :=
    (congrArg String.toList (CompiledQuery.query_compile _ m c)).trans
      (Template.fill_fill hbase Template.isName_columns Template.isName_filters hne
        (ColumnMapping.isInert_selectList hempty hm) hlist hfilter)
  have hother : (Template.withColumns (CompiledQuery.compile t.base m c).query m []).toList =
      Template.fillAll [filter, list] t.base.toList := by
    rw [CompiledQuery.query_compile]
    exact Template.fill_fill hbase Template.isName_filters Template.isName_columns hne.symm
      (Selection.isInert_condition hm c) hfilter hlist
  refine ⟨hsearch, ?_⟩
  rw [← String.toList_inj, hsearch, hother]
  exact hpair.fillAll_congr hswapped (fun f => List.mem_pair.trans (or_comm.trans
    List.mem_pair.symm)) t.base.toList

/-- Nested braces, a placeholder inside another one, and escapes on both sides of placeholders:
each piece of the template is read once, and the text that looks like a placeholder behind the
first stage is none for the second. -/
theorem query_search_nested_braces :
    let t : Templates :=
      { base := "select {columns}, '{{columns}}' from {fil{columns}ters} " ++
          "where {{{filters}}} or {filters}"
        findPasswordHash := "" }
    let m : ColumnMapping := ColumnMapping.parse ["id=user_id", "email=mail"]
    let c : Criteria := (Criteria.withExact .empty true).withAttribute "email" "{filters}"
    let source : ConnectionSource Unit := ⟨pure (), fun _ _ => pure [], fun _ _ => pure 0⟩
    let engine : HashEngine := { algorithm := .pbkdf2 }
    let r : Repository Unit := ⟨source, TemplateSet.ofTemplates t m engine .sqlite false false⟩
    ('\x01' ∉ t.base.toList ∧ m.isEmpty = false ∧ m.IsPlain) ∧
      (r.search c).query =
        "select user_id AS id, mail AS email, '{columns}' from " ++
          "{filuser_id AS id, mail AS emailters} where {{filters}} or  UPPER(mail) = ?  " := by
  intro t m c source engine r
  have hbase : '\x01' ∉ t.base.toList := by decide
  have hempty : m.isEmpty = false := by decide
  have hm : m.IsPlain := by decide
  refine ⟨⟨hbase, hempty, hm⟩, ?_⟩
  have hpass := (query_search_eq source t m engine .sqlite false false c hbase hempty hm).1
  rw [← String.toList_inj]
  refine hpass.trans ?_
  decide +kernel

end Repository

end RealmDirectory
