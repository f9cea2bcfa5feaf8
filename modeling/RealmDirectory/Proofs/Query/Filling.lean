import RealmDirectory.Proofs.Query.Placeholder
import RealmDirectory.Proofs.Query.Reading

/-!
# Filters in templates

The filter of a search takes the place of the placeholder for filters and leaves the rest of
the template alone. A filter ends in a blank or in a digit, so it never runs into a mark of
the template behind it; and when no column holds the mark under which escapes are set aside,
the filter stands in the statement as it was written.

## Main results

* `isClosed_condition`, `notMem_condition`: what filters are made of.
* `query_compile_alone`: the filter of a search on its own.
* `compile_around`: the statement of a search between plain texts.
-/

namespace RealmDirectory

namespace Selection

/-- A comparison ends in a blank. -/
theorem exists_comparison_eq (exact : Bool) (column : String) :
    ∃ v, (comparison exact column).toList = v ++ [' '] := by
  cases exact with
  | true => exact ⟨(" UPPER(" ++ column ++ ") = ? ").toList, by simp [comparison]⟩
  | false => exact ⟨(" UPPER(" ++ column ++ ") LIKE ? ESCAPE '!'").toList, by simp [comparison]⟩

/-- **A filter ends in a character that is in no mark of a template.** -/
theorem isClosed_condition {s : Selection} (h : s.IsBound) (exact : Bool) :
    Template.IsClosed (s.condition exact) := by
  match s, h with
  | everyone, _ => exact ⟨['1', '='], '1', by simp [condition], by decide⟩
  | nobody, _ => exact ⟨['1', '='], '0', by simp [condition], by decide⟩
  | matching word (e :: l), _ =>
      have hblank : ' ' ∉ Template.aside Template.filters.toList := by decide
      suffices hv : ∃ v, ((matching word (e :: l)).condition exact).toList = v ++ [' '] by
        obtain ⟨v, hv⟩ := hv
        exact ⟨v, ' ', hv, hblank⟩
      induction l generalizing e with
      | nil =>
          rw [condition_singleton]
          exact exists_comparison_eq exact e.1
      | cons d l ih =>
          obtain ⟨v, hv⟩ := ih d (List.cons_ne_nil d l)
          refine ⟨(comparison exact e.1).toList ++ word.word.toList ++ v, ?_⟩
          rw [condition_cons, String.toList_append, String.toList_append, hv,
            List.append_assoc _ v]

/-- The texts that filters are made of, columns apart. -/
def filterTexts : List String :=
  [" UPPER(", ") = ?  ", ") LIKE ? ESCAPE '!' ", "AND", "OR", "1=1", "1=0"]

/-- A character that is in no text that filters are made of. -/
def IsForeign (x : Char) : Prop := ∀ text ∈ filterTexts, x ∉ text.toList

instance (x : Char) : Decidable (IsForeign x) := List.decidableBAll _ _

/-- A comparison holds no foreign character that its column does not hold. -/
theorem notMem_comparison {x : Char} (hx : IsForeign x) {column : String}
    (h : x ∉ column.toList) (exact : Bool) : x ∉ (comparison exact column).toList := by
  have hupper := hx " UPPER(" (by simp [filterTexts])
  have hequal := hx ") = ?  " (by simp [filterTexts])
  have hlike := hx ") LIKE ? ESCAPE '!' " (by simp [filterTexts])
  cases exact <;>
    simp only [comparison, Bool.false_eq_true, if_true, if_false, String.toList_append,
      List.mem_append, not_or]
  · exact ⟨⟨hupper, h⟩, hlike⟩
  · exact ⟨⟨hupper, h⟩, hequal⟩

/-- A filter holds no foreign character that its columns do not hold. -/
theorem notMem_condition {x : Char} (hx : IsForeign x) {s : Selection}
    (h : ∀ d ∈ s.columns, x ∉ d.toList) (exact : Bool) : x ∉ (s.condition exact).toList := by
  match s, h with
  | everyone, _ => exact hx "1=1" (by simp [filterTexts])
  | nobody, _ => exact hx "1=0" (by simp [filterTexts])
  | matching word [], _ => exact List.not_mem_nil
  | matching word (e :: l), h =>
      have he := notMem_comparison hx (h e.1 (List.mem_map_of_mem List.mem_cons_self)) exact
      induction l generalizing e with
      | nil =>
          rw [condition_singleton]
          exact he
      | cons d l ih =>
          have hl : ∀ b ∈ (matching word (d :: l)).columns, x ∉ b.toList :=
            fun b hb => h b (List.mem_cons_of_mem e.1 hb)
          have hd := notMem_comparison hx (hl d.1 (List.mem_map_of_mem List.mem_cons_self)) exact
          have hword : x ∉ word.word.toList := by
            cases word with
            | all => exact hx "AND" (by simp [filterTexts])
            | any => exact hx "OR" (by simp [filterTexts])
          rw [condition_cons, String.toList_append, String.toList_append,
            List.mem_append, List.mem_append]
          rintro ((hmem | hmem) | hmem)
          · exact he hmem
          · exact hword hmem
          · exact ih d hl hd hmem

end Selection

namespace CompiledQuery

open Selection

variable {m : ColumnMapping} {c : Criteria}

/-- A template that mentions the placeholder for filters gets the filter and the parameters
of the search. -/
theorem compile_of_mentions {template : String}
    (h : Template.mentions template Template.filters = true) (m : ColumnMapping)
    (c : Criteria) :
    compile template m c =
      ⟨Template.fill template Template.filters ((of m c).condition c.isExact),
        (of m c).parameters c.isExact⟩ := by
  simp only [compile, h, if_true]

/-- A search of which nothing but the filter is compiled. -/
theorem compile_alone (m : ColumnMapping) (c : Criteria) :
    compile "{filters}" m c =
      ⟨Template.fill "{filters}" Template.filters ((of m c).condition c.isExact),
        (of m c).parameters c.isExact⟩ :=
  compile_of_mentions (by decide) m c

/-- **The filter of a search stands in the statement as it was written**, when no column
holds the mark of an escape. -/
theorem query_compile_alone (hm : m.Avoids '\x01') (c : Criteria) :
    (compile "{filters}" m c).query = (of m c).condition c.isExact := by
  rw [compile_alone]
  exact Template.fill_filters_eq_self (isClosed_condition (isBound_of m c) _)
    (notMem_condition (by decide) (notMem_of_mem_columns hm) _)

/-- **Plain texts around the placeholder for filters stay around the filter.** -/
theorem compile_around {pre post : String} (hpre : Template.IsPlain pre.toList)
    (hpost : Template.IsPlain post.toList) (m : ColumnMapping) (c : Criteria) :
    compile (pre ++ "{filters}" ++ post) m c =
      ⟨pre ++ (compile "{filters}" m c).query ++ post, (compile "{filters}" m c).params⟩ := by
  rw [compile_of_mentions (Template.mentions_around hpre post), compile_alone,
    Template.fill_around hpre hpost (isClosed_condition (isBound_of m c) _)]

/-- A part of a template, as a search fills it. -/
def filled (m : ColumnMapping) (c : Criteria) (part : String) : String :=
  Template.fill part Template.filters ((of m c).condition c.isExact)

/-- Plain text is not changed by a search. -/
theorem filled_plain {part : String} (h : Template.IsPlain part.toList) (m : ColumnMapping)
    (c : Criteria) : filled m c part = part := by
  rw [filled, Template.fill, Template.fillChars_plain h, String.ofList_toList]

end CompiledQuery

end RealmDirectory
