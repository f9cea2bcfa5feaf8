import Mathlib.Data.List.Sort
import Mathlib.Data.String.Basic
import RealmDirectory.Query.Filter

/-!
# Values bound to columns

A search binds values to columns one after the other. The list that results is determined
by what was bound and not by the order: its columns are the bound ones, each once and in
ascending order, and a column that was only ever bound to one value keeps it.

## Main results

* `ascending_bindColumns`: the columns stand in ascending order, so none is there twice.
* `mem_columns_bindColumns`: the columns are those that were bound.
* `columns_bindColumns_eq`: lists that bind the same columns give the same columns, in the
  same order.
* `mem_bindColumns`: without conflicting values, exactly the bindings of the list remain.
-/

namespace RealmDirectory

/-- The columns of a list of bindings, each with its value. -/
abbrev Bindings := List (String × String)

namespace Bindings

/-- The columns that have a value. -/
def columns (b : Bindings) : List String := b.map Prod.fst

/-- The columns stand in ascending order. -/
def Ascending (b : Bindings) : Prop := b.columns.Pairwise (· < ·)

/-- No column has two values. -/
def Consistent (b : Bindings) : Prop :=
  ∀ column v w, (column, v) ∈ b → (column, w) ∈ b → v = w

/-! ### Binding one column -/

theorem ascending_nil : Ascending [] := List.Pairwise.nil

/-- The columns behind the first one are greater. -/
theorem Ascending.lt_of_mem {e : String × String} {r : Bindings}
    (h : Ascending (e :: r)) {column : String} (hc : column ∈ columns r) :
    e.1 < column :=
  List.rel_of_pairwise_cons h hc

/-- The columns behind the first one are in ascending order. -/
theorem Ascending.tail {e : String × String} {r : Bindings} (h : Ascending (e :: r)) :
    Ascending r :=
  List.Pairwise.of_cons h

/-- Binding a column adds it to the columns. -/
theorem mem_columns_bindColumn {column value d : String} {b : Bindings} :
    d ∈ columns (bindColumn column value b) ↔ d = column ∨ d ∈ columns b := by
  induction b with
  | nil => simp [bindColumn, columns]
  | cons e r ih =>
      obtain ⟨c, v⟩ := e
      rw [bindColumn]
      split
      · simp [columns]
      · split
        · next h => simp [columns, h]
        · simp only [columns, List.map_cons, List.mem_cons] at ih ⊢
          rw [ih]
          tauto

/-- Binding a column keeps the order. -/
theorem Ascending.bindColumn {b : Bindings} (h : Ascending b) (column value : String) :
    Ascending (bindColumn column value b) := by
  induction b with
  | nil => exact List.pairwise_singleton _ _
  | cons e r ih =>
      obtain ⟨c, v⟩ := e
      rw [RealmDirectory.bindColumn]
      split
      · next hlt =>
          refine List.Pairwise.cons (fun d hd => ?_) h
          rcases List.mem_cons.mp hd with rfl | hd
          · exact hlt
          · exact hlt.trans (h.lt_of_mem hd)
      · next hlt =>
          split
          · next heq => exact heq ▸ h
          · next hne =>
              refine List.Pairwise.cons (fun d hd => ?_) (ih h.tail)
              rcases mem_columns_bindColumn.mp hd with rfl | hd
              · exact lt_of_le_of_ne (not_lt.mp hlt) (Ne.symm hne)
              · exact h.lt_of_mem hd

/-- Binding a column replaces its value and leaves the others. -/
theorem mem_bindColumn {column value : String} {b : Bindings} (h : Ascending b)
    {e : String × String} :
    e ∈ bindColumn column value b ↔ e = (column, value) ∨ e ∈ b ∧ e.1 ≠ column := by
  induction b with
  | nil => simp [bindColumn]
  | cons d r ih =>
      obtain ⟨c, v⟩ := d
      have hbehind : ∀ e ∈ r, c < e.1 := fun e he => h.lt_of_mem (List.mem_map_of_mem he)
      rw [bindColumn]
      split
      · -- Every column of the list is greater, so none is replaced.
        next hlt =>
          have hother : ∀ e ∈ (c, v) :: r, e.1 ≠ column := by
            intro e he
            rcases List.mem_cons.mp he with rfl | he
            · exact hlt.ne'
            · exact (hlt.trans (hbehind e he)).ne'
          rw [List.mem_cons]
          exact or_congr_right ⟨fun he => ⟨he, hother e he⟩, And.left⟩
      · split
        · next heq =>
            subst heq
            have hother : ∀ e ∈ r, e.1 ≠ column := fun e he => (hbehind e he).ne'
            constructor
            · intro he
              rcases List.mem_cons.mp he with rfl | he
              · exact Or.inl rfl
              · exact Or.inr ⟨List.mem_cons_of_mem _ he, hother e he⟩
            · rintro (rfl | ⟨he, hne⟩)
              · exact List.mem_cons_self
              · rcases List.mem_cons.mp he with rfl | he
                · exact absurd rfl hne
                · exact List.mem_cons_of_mem _ he
        · next hne =>
            rw [List.mem_cons, ih h.tail, List.mem_cons]
            constructor
            · rintro (rfl | rfl | ⟨he, hcol⟩)
              · exact Or.inr ⟨Or.inl rfl, Ne.symm hne⟩
              · exact Or.inl rfl
              · exact Or.inr ⟨Or.inr he, hcol⟩
            · rintro (rfl | ⟨rfl | he, hcol⟩)
              · exact Or.inr (Or.inl rfl)
              · exact Or.inl rfl
              · exact Or.inr (Or.inr ⟨he, hcol⟩)

/-! ### Binding a list of columns -/

/-- Binding the entries of a list to what is already bound. -/
def bindAll (b l : Bindings) : Bindings := l.foldl (fun b e => bindColumn e.1 e.2 b) b

theorem bindAll_cons (b : Bindings) (e : String × String) (l : Bindings) :
    bindAll b (e :: l) = bindAll (bindColumn e.1 e.2 b) l := rfl

/-- Binding a list keeps the order. -/
theorem Ascending.bindAll {b : Bindings} (h : Ascending b) (l : Bindings) :
    Ascending (bindAll b l) := by
  induction l generalizing b with
  | nil => exact h
  | cons e l ih => exact ih (h.bindColumn e.1 e.2)

theorem mem_columns_bindAll {d : String} {b l : Bindings} :
    d ∈ columns (bindAll b l) ↔ d ∈ columns b ∨ d ∈ columns l := by
  induction l generalizing b with
  | nil => simp [bindAll, columns]
  | cons e l ih =>
      rw [bindAll_cons, ih, mem_columns_bindColumn]
      simp only [columns, List.map_cons, List.mem_cons]
      tauto

theorem mem_bindAll {b l : Bindings} (h : Ascending b) (hcons : Consistent (b ++ l))
    {e : String × String} : e ∈ bindAll b l ↔ e ∈ b ∨ e ∈ l := by
  induction l generalizing b with
  | nil => simp [bindAll]
  | cons d l ih =>
      obtain ⟨c, v⟩ := d
      -- Nothing is lost by the replacement: what was bound to the column is the same value.
      have hmem : ∀ e, e ∈ bindColumn c v b ↔ e ∈ b ∨ e = (c, v) := by
        intro e
        rw [mem_bindColumn h]
        constructor
        · rintro (rfl | ⟨he, -⟩)
          · exact Or.inr rfl
          · exact Or.inl he
        · rintro (he | rfl)
          · by_cases hc : e.1 = c
            · refine Or.inl (Prod.ext hc ?_)
              exact hcons c e.2 v (List.mem_append_left _ (hc ▸ he)) (by simp)
            · exact Or.inr ⟨he, hc⟩
          · exact Or.inl rfl
      have hcons' : Consistent (bindColumn c v b ++ l) := by
        intro column u w hu hw
        refine hcons column u w ?_ ?_
        · simp only [List.mem_append, hmem, List.mem_cons] at hu ⊢
          tauto
        · simp only [List.mem_append, hmem, List.mem_cons] at hw ⊢
          tauto
      rw [bindAll_cons, ih (h.bindColumn c v) hcons', hmem, List.mem_cons]
      tauto

/-- What is bound in the end was bound before or is in the list. -/
theorem mem_or_mem_of_mem_bindAll {b l : Bindings} (h : Ascending b) {e : String × String}
    (he : e ∈ bindAll b l) : e ∈ b ∨ e ∈ l := by
  induction l generalizing b with
  | nil => exact Or.inl he
  | cons d l ih =>
      rcases ih (h.bindColumn d.1 d.2) he with hb | hl
      · rcases (mem_bindColumn h).mp hb with rfl | ⟨hb, -⟩
        · exact Or.inr List.mem_cons_self
        · exact Or.inl hb
      · exact Or.inr (List.mem_cons_of_mem d hl)

/-- A list binds nothing that is not in it. -/
theorem mem_of_mem_bindColumns {l : Bindings} {e : String × String} (he : e ∈ bindColumns l) :
    e ∈ l :=
  (mem_or_mem_of_mem_bindAll ascending_nil he).resolve_left List.not_mem_nil

/-- The columns that a list binds stand in ascending order. -/
theorem ascending_bindColumns (l : Bindings) : Ascending (bindColumns l) :=
  ascending_nil.bindAll l

/-- The columns are those that a list binds. -/
theorem mem_columns_bindColumns {d : String} {l : Bindings} :
    d ∈ columns (bindColumns l) ↔ d ∈ columns l :=
  mem_columns_bindAll.trans (by simp [columns])

/-- Nothing is bound exactly when a list binds nothing. -/
theorem bindColumns_eq_nil_iff {l : Bindings} : bindColumns l = [] ↔ l = [] := by
  have hcolumns (b : Bindings) : b = [] ↔ columns b = [] := List.map_eq_nil_iff.symm
  simp only [hcolumns, List.eq_nil_iff_forall_not_mem, mem_columns_bindColumns]

/-- **The columns do not depend on the order of a list, nor on its values.** -/
theorem columns_bindColumns_eq {l₁ l₂ : Bindings}
    (h : ∀ d, d ∈ columns l₁ ↔ d ∈ columns l₂) :
    columns (bindColumns l₁) = columns (bindColumns l₂) :=
  List.Pairwise.eq_of_mem_iff (ascending_bindColumns l₁) (ascending_bindColumns l₂)
    fun d => mem_columns_bindColumns.trans ((h d).trans mem_columns_bindColumns.symm)

/-- **Without conflicts, exactly the bindings of a list remain.** -/
theorem mem_bindColumns {l : Bindings} (h : Consistent l) {e : String × String} :
    e ∈ bindColumns l ↔ e ∈ l :=
  (mem_bindAll ascending_nil h).trans (by simp)

/-- A binding stands behind the first one exactly when some column is smaller than its
own. -/
theorem Ascending.exists_mem_tail_iff {e : String × String} {r : Bindings}
    (h : Ascending (e :: r)) {p : String × String → Prop} :
    (∃ d ∈ r, p d) ↔ ∃ f ∈ e :: r, ∃ d ∈ e :: r, f.1 < d.1 ∧ p d := by
  have hlt : ∀ d ∈ r, e.1 < d.1 := fun d hd => h.lt_of_mem (List.mem_map_of_mem hd)
  constructor
  · rintro ⟨d, hd, hp⟩
    exact ⟨e, List.mem_cons_self, d, List.mem_cons_of_mem e hd, hlt d hd, hp⟩
  · rintro ⟨f, hf, d, hd, hfd, hp⟩
    rcases List.mem_cons.mp hd with rfl | hd
    · -- Nothing is smaller than the first column.
      rcases List.mem_cons.mp hf with rfl | hf
      · exact absurd hfd (lt_irrefl _)
      · exact absurd (hfd.trans (hlt f hf)) (lt_irrefl _)
    · exact ⟨d, hd, hp⟩

end Bindings

end RealmDirectory
