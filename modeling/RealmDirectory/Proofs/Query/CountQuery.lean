import RealmDirectory.Proofs.Query.FixedStatements

/-!
# Derived count statements

A directory that has no count statement of its own derives one from its base statement: the text
`count(*)` takes the place of the select list. The derived statement differs from the one that
lists the users only in what stands in these places. A base statement that writes out its select
list has none, and then both statements are the same.

Where `count(*)` stands is told from the start of the statements. Filling writes only a few
characters of its own at the start of what it reads, so a beginning of the derived statement
that is made of other ones is a beginning of the base statement.

## Main definitions

* `Template.fillTwice`: a template with a select list and the filter for everyone.

## Main results

* `Template.count_prefix_fillTwice_iff`: when a filled template begins with `count(*)`.
* `Template.fillTwice_eq_iff`: when the derived statement is the listing.
-/

namespace RealmDirectory

/-- A replacement writes the new text when the piece begins a text, and copies the first
character otherwise. -/
theorem Text.replace_cons_cases {old : List Char} (hold : old ≠ []) (new : List Char) (c : Char)
    (y : List Char) :
    (old <+: c :: y ∧ ∃ z, replace old new (c :: y) = new ++ z) ∨
      (¬ old <+: c :: y ∧ replace old new (c :: y) = c :: replace old new y) := by
  by_cases h : old <+: c :: y
  · obtain ⟨z, hz⟩ := h
    exact .inl ⟨⟨z, hz⟩, replace old new z, by rw [← hz, replace_piece_append hold]⟩
  · exact .inr ⟨h, replace_cons h new⟩

namespace Template

/-! ### The start of a filled template -/

section

variable {name : List Char}

/-- A character at which no piece begins is copied. -/
theorem fillChars_cons {c : Char} (hopen : c ≠ '{') (hmark : c ≠ '\x01') (y value : List Char) :
    fillChars (c :: y) name value = c :: fillChars y name value := by
  have hescape (z : List Char) : ¬ escaped name <+: c :: z := fun h =>
    hopen (List.cons_prefix_cons.mp h).1.symm
  have hhole (z : List Char) : ¬ placeholder name <+: c :: z := fun h =>
    hopen (List.cons_prefix_cons.mp h).1.symm
  have haside (z : List Char) : ¬ aside name <+: c :: z := fun h =>
    hmark (List.cons_prefix_cons.mp h).1.symm
  rw [fillChars, Text.replace_cons (hescape _), Text.replace_cons (hhole _),
    Text.replace_cons (haside _)]
  rfl

/-- Where a piece could begin but no placeholder does, filling writes a brace or a mark. -/
theorem exists_fillChars_eq_cons (hname : IsName name) {c : Char} (hc : c = '{' ∨ c = '\x01')
    {y : List Char} (h : ¬ placeholder name <+: c :: y) (value : List Char) :
    ∃ d z, fillChars (c :: y) name value = d :: z ∧ (d = '{' ∨ d = '\x01') := by
  have hmark : '\x01' ∉ placeholder name := by simpa [placeholder] using hname.mark_notMem
  obtain ⟨d, z, hfirst, hd⟩ : ∃ d z, Text.replace (escaped name) (aside name) (c :: y) = d :: z ∧
      (d = '{' ∨ d = '\x01') := by
    rcases Text.replace_cons_cases escaped_ne_nil (aside name) c y with ⟨-, z, hz⟩ | ⟨-, hz⟩
    · exact ⟨'\x01', name ++ ['\x01'] ++ z, hz, .inr rfl⟩
    · exact ⟨c, _, hz, hc⟩
  have hhole : ¬ placeholder name <+: d :: z := fun hpre =>
    h (Text.prefix_of_prefix_replace hmark (hfirst ▸ hpre))
  rw [fillChars, hfirst, Text.replace_cons hhole]
  rcases Text.replace_cons_cases aside_ne_nil (placeholder name) d
    (Text.replace (placeholder name) value z) with ⟨-, w, hw⟩ | ⟨-, hw⟩
  · exact ⟨'{', name ++ ['}'] ++ w, hw, .inl rfl⟩
  · exact ⟨d, _, hw, hd⟩

/-- A placeholder at the start becomes a value of plain text. -/
theorem exists_fillChars_placeholder_eq (hname : IsName name) {value : List Char} {d : Char}
    (hvalue : IsPlain (value ++ [d])) (hd : d ∉ aside name) (y : List Char) :
    ∃ z, fillChars (placeholder name ++ y) name (value ++ [d]) = value ++ [d] ++ z := by
  rw [fillChars_placeholder_append hname hd, restore_eq_self hvalue.mark_notMem]
  exact ⟨_, rfl⟩

end

/-! ### A select list and the filter for everyone -/

/-- A template with a select list, and with the filter that selects everyone. -/
def fillTwice (list template : List Char) : List Char :=
  fillChars (fillChars template columns.toList list) filters.toList "1=1".toList

/-- The text that is put in place of a select list. -/
def countList : List Char := "count(*)".toList

theorem isPlain_countList : IsPlain countList := by decide

/-- Plain text in front is copied. -/
theorem fillTwice_plain_append {x : List Char} (hx : IsPlain x) (list y : List Char) :
    fillTwice list (x ++ y) = x ++ fillTwice list y := by
  rw [fillTwice, fillChars_plain_append hx, fillChars_plain_append hx]
  rfl

/-- A character at which no piece begins is copied. -/
theorem fillTwice_cons {c : Char} (hopen : c ≠ '{') (hmark : c ≠ '\x01') (list y : List Char) :
    fillTwice list (c :: y) = c :: fillTwice list y := by
  rw [fillTwice, fillChars_cons hopen hmark, fillChars_cons hopen hmark]
  rfl

/-- The place for a select list becomes `count(*)`. -/
theorem exists_fillTwice_placeholder_eq (y : List Char) :
    ∃ z, fillTwice countList (placeholder columns.toList ++ y) = countList ++ z := by
  have hlist : countList = "count(*".toList ++ [')'] := by decide
  obtain ⟨z, hz⟩ := exists_fillChars_placeholder_eq isName_columns
    (hlist ▸ isPlain_countList) (by decide) y
  rw [← hlist] at hz
  rw [fillTwice, hz, fillChars_plain_append isPlain_countList]
  exact ⟨_, rfl⟩

/-- The characters that filling writes by itself at the start of what it reads. -/
def writtenFirst : List Char := ['{', '\x01', '1']

/-- Where a piece begins, filling writes `count(*)` or one of its own characters. -/
theorem exists_fillTwice_eq_cons {c : Char} (hc : c = '{' ∨ c = '\x01') {y : List Char}
    (h : ¬ placeholder columns.toList <+: c :: y) :
    ∃ d z, fillTwice countList (c :: y) = d :: z ∧ d ∈ writtenFirst := by
  obtain ⟨d, z, hz, hd⟩ := exists_fillChars_eq_cons isName_columns hc h countList
  rw [fillTwice, hz]
  by_cases hhole : placeholder filters.toList <+: d :: z
  · obtain ⟨w, hw⟩ := hhole
    have hfilter : IsPlain ("1=".toList ++ ['1']) := by decide
    obtain ⟨v, hv⟩ := exists_fillChars_placeholder_eq isName_filters hfilter (by decide) w
    exact ⟨'1', '=' :: '1' :: v, hw ▸ hv, by decide⟩
  · obtain ⟨e, w, hw, he⟩ := exists_fillChars_eq_cons isName_filters hd hhole "1=1".toList
    refine ⟨e, w, hw, ?_⟩
    rcases he with rfl | rfl <;> decide

/-- A beginning of the derived statement is one of the template when no character of it could
have been written by filling. -/
theorem prefix_of_prefix_fillTwice {w : List Char} (hw : ∀ c ∈ w, c ∉ 'c' :: writtenFirst)
    {s : List Char} (h : w <+: fillTwice countList s) : w <+: s := by
  induction w generalizing s with
  | nil => exact List.nil_prefix
  | cons d w ih =>
      have hd := hw d List.mem_cons_self
      have hother {e : Char} {z : List Char} (he : e ∈ 'c' :: writtenFirst)
          (heq : fillTwice countList s = e :: z) : d :: w <+: s := by
        rw [heq] at h
        exact absurd ((List.cons_prefix_cons.mp h).1 ▸ he) hd
      cases s with
      | nil => exact absurd (List.prefix_nil.mp h) (List.cons_ne_nil d w)
      | cons c y =>
          by_cases hc : c = '{' ∨ c = '\x01'
          · by_cases hhole : placeholder columns.toList <+: c :: y
            · obtain ⟨z, hz⟩ := hhole
              obtain ⟨v, hv⟩ := exists_fillTwice_placeholder_eq z
              exact hother (z := "ount(*)".toList ++ v) (by decide) (hz ▸ hv)
            · obtain ⟨e, z, hz, he⟩ := exists_fillTwice_eq_cons hc hhole
              exact hother (List.mem_cons_of_mem _ he) hz
          · obtain ⟨hopen, hmark⟩ := not_or.mp hc
            rw [fillTwice_cons hopen hmark] at h
            obtain ⟨rfl, hrest⟩ := List.cons_prefix_cons.mp h
            exact List.cons_prefix_cons.mpr
              ⟨rfl, ih (fun e he => hw e (List.mem_cons_of_mem d he)) hrest⟩

theorem countList_eq_cons : countList = 'c' :: "ount(*)".toList := by decide

/-- **When a derived statement begins with `count(*)`**: when the template begins with the place
for a select list, or with that text itself. -/
theorem count_prefix_fillTwice_iff (s : List Char) :
    countList <+: fillTwice countList s ↔
      placeholder columns.toList <+: s ∨ countList <+: s := by
  constructor
  · intro h
    have hfirst {c : Char} {z : List Char} (heq : fillTwice countList s = c :: z) :
        'c' = c ∧ "ount(*)".toList <+: z := by
      rw [heq, countList_eq_cons] at h
      exact List.cons_prefix_cons.mp h
    cases s with
    | nil => exact absurd h (by decide)
    | cons c y =>
        by_cases hc : c = '{' ∨ c = '\x01'
        · refine .inl (Decidable.byContradiction fun hhole => ?_)
          obtain ⟨e, z, hz, he⟩ := exists_fillTwice_eq_cons hc hhole
          exact absurd ((hfirst hz).1 ▸ he) (by decide)
        · obtain ⟨hopen, hmark⟩ := not_or.mp hc
          obtain ⟨rfl, hrest⟩ := hfirst (fillTwice_cons hopen hmark countList y)
          have hown : "ount(*)".toList.all (fun d => d ∉ 'c' :: writtenFirst) = true := by decide
          simp only [List.all_eq_true, decide_eq_true_eq] at hown
          rw [countList_eq_cons]
          exact .inr (List.cons_prefix_cons.mpr ⟨rfl, prefix_of_prefix_fillTwice hown hrest⟩)
  · rintro (⟨y, rfl⟩ | ⟨y, rfl⟩)
    · obtain ⟨z, hz⟩ := exists_fillTwice_placeholder_eq y
      exact ⟨z, hz.symm⟩
    · exact ⟨_, (fillTwice_plain_append isPlain_countList countList y).symm⟩

/-! ### The derived statement and the listing -/

/-- A character that is in neither placeholder stands in the filled template as often as in the
template, and in every place for a select list as often as in the list. -/
theorem count_fillTwice {d : Char} (hcolumns : IsOutside columns.toList d)
    (hfilters : IsOutside filters.toList d) (hfilter : d ∉ "1=1".toList)
    (template list : String) :
    (fillTwice list.toList template.toList).count d =
      template.toList.count d + places template columns * list.toList.count d := by
  have hlist := count_fill isName_columns hcolumns template list
  have htwice := count_fill isName_filters hfilters (fill template columns list) "1=1"
  rw [List.count_eq_zero.mpr hfilter, Nat.mul_zero, Nat.add_zero, hlist] at htwice
  simpa only [fill, String.toList_ofList, fillTwice] using htwice

/-- **The derived statement is the listing exactly when there is no place for a select list.**
Two lists that one character tells apart show in every place. -/
theorem fillTwice_eq_iff {d : Char} (hcolumns : IsOutside columns.toList d)
    (hfilters : IsOutside filters.toList d) (hfilter : d ∉ "1=1".toList) {list other : String}
    (hcount : list.toList.count d ≠ other.toList.count d) (template : String) :
    fillTwice list.toList template.toList = fillTwice other.toList template.toList ↔
      places template columns = 0 := by
  constructor
  · intro heq
    have hlist := count_fillTwice hcolumns hfilters hfilter template list
    rw [heq, count_fillTwice hcolumns hfilters hfilter template other] at hlist
    refine Nat.eq_zero_of_not_pos fun hpos => hcount ?_
    exact (Nat.eq_of_mul_eq_mul_left hpos (Nat.add_left_cancel hlist)).symm
  · intro hnone
    have hplace : hasPlace template columns = false := by
      rw [← Bool.not_eq_true, hasPlace_iff isName_columns, hnone]
      exact Nat.lt_irrefl 0
    have hsame := (hasPlace_eq_false_iff isName_columns).mp hplace list other
    simp only [fill, String.ofList_inj] at hsame
    rw [fillTwice, fillTwice, hsame]

end Template

end RealmDirectory
