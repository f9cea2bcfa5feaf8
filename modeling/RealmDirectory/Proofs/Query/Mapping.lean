import Mathlib.Data.List.Sort
import RealmDirectory.Proofs.KeyedList
import RealmDirectory.Proofs.Text.Splitting
import RealmDirectory.Proofs.Text.Trimming
import RealmDirectory.Query.Columns

/-!
# What a list of entries maps

An entry counts when it names an attribute and a column around its first equals sign. A mapping
takes the columns of the last entries that count and the places of the first ones, so two readings
of the list describe it at once: which entry is the last one for an attribute, and for which of two
attributes there was an entry first. No other mapping fits both.

## Main definitions

* `ColumnMapping.Names`: an entry names an attribute and a column.
* `ColumnMapping.Precedes`: there is an entry for one attribute before there is any for another.
* `ColumnMapping.IsMappingOf`: a mapping has what a list of entries names.
* `ColumnMapping.printed`: the entries that a mapping is written as.

## Main results

* `ColumnMapping.parseEntry_eq_some_iff`: an entry is read exactly when it counts.
* `ColumnMapping.isMappingOf_parse`: what is read has what the entries name.
* `ColumnMapping.IsMappingOf.eq`: nothing else has.
* `ColumnMapping.parse_eq_iff_isMappingOf`: reading a list of entries, all of it.
-/

namespace RealmDirectory

namespace Text

/-- **What is cut off a text** stands in front of its first separator. -/
theorem cut_eq_some_iff {separator : Char} {s x y : List Char} :
    cut separator s = some (x, y) ↔ s = x ++ separator :: y ∧ separator ∉ x := by
  constructor
  · intro h
    by_cases hmem : separator ∈ s
    · obtain ⟨x', y', rfl, hx'⟩ := List.eq_append_cons_of_mem hmem
      rw [cut_append_cons hx'] at h
      obtain ⟨rfl, rfl⟩ := Prod.mk.inj (Option.some.inj h)
      exact ⟨rfl, hx'⟩
    · rw [cut_of_notMem hmem] at h
      cases h
  · rintro ⟨rfl, hx⟩
    exact cut_append_cons hx y

end Text

namespace ColumnMapping

/-! ### Entries that count -/

/-- An entry names an attribute and a column: around its first equals sign stand two texts, neither
of them blank, which are the two names but for blanks at their ends. -/
def Names (entry name column : String) : Prop :=
  ∃ before behind, entry.toList = before ++ '=' :: behind ∧ '=' ∉ before ∧
    (∃ c ∈ before, Text.isBlank c = false) ∧ (∃ c ∈ behind, Text.isBlank c = false) ∧
    name.toList = Text.strip before ∧ column.toList = Text.strip behind

variable {entry name column : String}

/-- Something is left of a text exactly when it is not blank. -/
theorem strip_ne_nil_iff {s : List Char} :
    (Text.strip s).isEmpty = false ↔ ∃ c ∈ s, Text.isBlank c = false := by
  rw [← Bool.not_eq_true, List.isEmpty_iff, Text.strip_eq_nil_iff]
  simp only [not_forall, exists_prop, Bool.not_eq_true]

/-- **An entry is read exactly when it counts.** -/
theorem parseEntry_eq_some_iff :
    parseEntry entry = some (name, column) ↔ Names entry name column := by
  constructor
  · intro h
    cases hcut : Text.cut '=' entry.toList with
    | none => rw [parseEntry, hcut] at h; cases h
    | some p =>
        obtain ⟨before, behind⟩ := p
        obtain ⟨heq, hbefore⟩ := Text.cut_eq_some_iff.mp hcut
        simp only [parseEntry, hcut, Option.bind_eq_bind, Option.bind_some] at h
        split at h
        · cases h
        · next hleft =>
            rw [Bool.not_eq_true, Bool.or_eq_false_iff] at hleft
            obtain ⟨rfl, rfl⟩ := Prod.mk.inj (Option.some.inj h)
            exact ⟨before, behind, heq, hbefore, strip_ne_nil_iff.mp hleft.1,
              strip_ne_nil_iff.mp hleft.2, String.toList_ofList, String.toList_ofList⟩
  · rintro ⟨before, behind, heq, hbefore, hname, hcolumn, hn, hc⟩
    have hcut := Text.cut_eq_some_iff.mpr ⟨heq, hbefore⟩
    have hleft : ¬ ((Text.strip before).isEmpty || (Text.strip behind).isEmpty) = true := by
      simp only [strip_ne_nil_iff.mpr hname, strip_ne_nil_iff.mpr hcolumn, Bool.or_self,
        Bool.false_eq_true, not_false_eq_true]
    simp only [parseEntry, hcut, Option.bind_eq_bind, Option.bind_some, if_neg hleft]
    rw [← hn, ← hc, String.ofList_toList, String.ofList_toList]

/-- No entry names two attributes or two columns. -/
theorem Names.unique {name' column' : String} (h : Names entry name column)
    (h' : Names entry name' column') : name' = name ∧ column' = column := by
  have heq := parseEntry_eq_some_iff.mpr h
  rw [parseEntry_eq_some_iff.mpr h'] at heq
  exact Prod.mk.inj (Option.some.inj heq)

theorem parseEntry_eq_none_iff :
    parseEntry entry = none ↔ ∀ name column, ¬ Names entry name column := by
  simp only [← parseEntry_eq_some_iff, Option.eq_none_iff_forall_ne_some, Prod.forall, ne_eq]

/-- What an entry names is not empty and has no blanks at its ends, and there is no equals sign in
the attribute. -/
theorem Names.trimmed (h : Names entry name column) :
    (name ≠ "" ∧ Text.trim name = name ∧ '=' ∉ name.toList) ∧
      column ≠ "" ∧ Text.trim column = column := by
  obtain ⟨before, behind, -, hbefore, hname, hcolumn, hn, hc⟩ := h
  have hproper {s : List Char} {t : String} (hs : ∃ c ∈ s, Text.isBlank c = false)
      (ht : t.toList = Text.strip s) : t ≠ "" ∧ Text.trim t = t := by
    constructor
    · rintro rfl
      rw [← strip_ne_nil_iff, ← ht] at hs
      cases hs
    · rw [Text.trim, ht, Text.strip_strip, ← ht, String.ofList_toList]
  obtain ⟨hne, htrim⟩ := hproper hname hn
  exact ⟨⟨hne, htrim, fun hmem => hbefore (Text.mem_of_mem_strip (hn ▸ hmem))⟩, hproper hcolumn hc⟩

/-! ### Mappings of entries -/

/-- The last entry for an attribute names a column. -/
def LastNames (entries : List String) (name column : String) : Prop :=
  ∃ before entry after, entries = before ++ entry :: after ∧ Names entry name column ∧
    ∀ e ∈ after, ∀ other, ¬ Names e name other

/-- There is an entry for one attribute before there is any for another one. -/
def Precedes (entries : List String) (name other : String) : Prop :=
  ∃ before entry after, entries = before ++ entry :: after ∧ (∃ column, Names entry name column) ∧
    ∀ e ∈ before ++ [entry], ∀ column, ¬ Names e other column

/-- A mapping has what a list of entries names: the column of the last entry for each attribute,
and the attributes in the order of the first entries for them. -/
structure IsMappingOf (m : ColumnMapping) (entries : List String) : Prop where
  column_eq_some_iff : ∀ name column, m.column name = some column ↔ LastNames entries name column
  order : m.keys.Pairwise (Precedes entries)

variable {entries : List String} {m m' : ColumnMapping} {other : String}

theorem not_lastNames_nil : ¬ LastNames [] name column := by
  rintro ⟨before, entry, after, heq, -⟩
  simp at heq

/-- The last entry for an attribute is the last one of all, or the last one before it. -/
theorem lastNames_concat_iff :
    LastNames (entries ++ [entry]) name column ↔ Names entry name column ∨
      (∀ other, ¬ Names entry name other) ∧ LastNames entries name column := by
  constructor
  · rintro ⟨before, e, after, heq, hnames, hafter⟩
    rcases after.eq_nil_or_concat' with rfl | ⟨after, x, rfl⟩
    · obtain ⟨rfl, rfl⟩ := List.append_inj' heq rfl |>.imp id List.singleton_inj.mp
      exact .inl hnames
    · rw [← List.cons_append, ← List.append_assoc] at heq
      obtain ⟨rfl, hx⟩ := List.append_inj' heq rfl
      obtain rfl := List.singleton_inj.mp hx
      exact .inr ⟨hafter entry (by simp), before, e, after, rfl, hnames, fun e' he' =>
        hafter e' (List.mem_append_left _ he')⟩
  · rintro (hnames | ⟨hnot, before, e, after, rfl, hnames, hafter⟩)
    · exact ⟨entries, entry, [], rfl, hnames, by simp⟩
    · refine ⟨before, e, after ++ [entry], by simp, hnames, fun e' he' => ?_⟩
      rcases List.mem_append.mp he' with hin | hlast
      · exact hafter e' hin
      · exact List.mem_singleton.mp hlast ▸ hnot

/-- **There is a last entry for an attribute** exactly when there is an entry for it. -/
theorem exists_lastNames_iff :
    (∃ column, LastNames entries name column) ↔ ∃ e ∈ entries, ∃ column, Names e name column := by
  constructor
  · rintro ⟨column, before, entry, after, rfl, hnames, -⟩
    exact ⟨entry, by simp, column, hnames⟩
  · rintro ⟨e, he, hnames⟩
    induction entries using List.reverseRecOn with
    | nil => cases he
    | append_singleton l x ih =>
        by_cases hx : ∃ column, Names x name column
        · exact hx.imp fun column h => lastNames_concat_iff.mpr (.inl h)
        · have hel : e ∈ l := by
            refine (List.mem_append.mp he).resolve_right fun hmem => hx ?_
            exact List.mem_singleton.mp hmem ▸ hnames
          exact (ih hel).imp fun column h =>
            lastNames_concat_iff.mpr (.inr ⟨not_exists.mp hx, h⟩)

/-- More entries behind do not change which attribute came first. -/
theorem Precedes.concat (h : Precedes entries name other) (entry : String) :
    Precedes (entries ++ [entry]) name other := by
  obtain ⟨before, e, after, rfl, hrest⟩ := h
  exact ⟨before, e, after ++ [entry], by simp, hrest⟩

/-- An attribute that has an entry precedes one that has none yet. -/
theorem precedes_concat (hname : ∃ e ∈ entries, ∃ column, Names e name column)
    (hother : ∀ e ∈ entries, ∀ column, ¬ Names e other column) (entry : String) :
    Precedes (entries ++ [entry]) name other := by
  obtain ⟨e, he, hnames⟩ := hname
  obtain ⟨before, after, rfl⟩ := List.append_of_mem he
  refine ⟨before, e, after ++ [entry], by simp, hnames, fun e' he' => hother e' ?_⟩
  exact List.mem_append.mpr ((List.mem_append.mp he').imp id fun h => by simp_all)

/-- No attribute comes before another one that comes before it. -/
theorem Precedes.asymm (h : Precedes entries name other) : ¬ Precedes entries other name := by
  rintro ⟨before', entry', after', heq', hnames', hnot'⟩
  obtain ⟨before, entry, after, rfl, ⟨column, hnames⟩, hnot⟩ := h
  obtain ⟨column', hnames'⟩ := hnames'
  rw [List.append_cons before, List.append_cons before'] at heq'
  -- one of the two entries stands no further right than the other one
  rcases List.append_eq_append_iff.mp heq' with ⟨gap, hgap, -⟩ | ⟨gap, hgap, -⟩
  · exact hnot' entry (by rw [hgap]; simp) column hnames
  · exact hnot entry' (by rw [hgap]; simp) column' hnames'

/-- An attribute of a mapping is one that has an entry. -/
theorem IsMappingOf.mem_keys_iff (h : m.IsMappingOf entries) :
    name ∈ m.keys ↔ ∃ e ∈ entries, ∃ column, Names e name column := by
  rw [KeyedList.mem_keys_iff, ← exists_lastNames_iff]
  exact exists_congr fun column => h.column_eq_some_iff name column

theorem parse_concat (entries : List String) (entry : String) :
    parse (entries ++ [entry]) = match parseEntry entry with
      | none => parse entries
      | some p => (parse entries).insert p.1 p.2 := by
  rw [parse, List.filterMap_append]
  cases hentry : parseEntry entry with
  | none => rw [List.filterMap_cons_none hentry, List.filterMap_nil, List.append_nil]; rfl
  | some p =>
      rw [List.filterMap_cons_some hentry, List.filterMap_nil, KeyedList.ofList_concat]
      rfl

/-- **What is read has what the entries name.** The induction is on the list from its end, where
the next entry is written: one that does not count changes neither reading of the list, and one
that does is the last one for its attribute, which comes last unless it had an entry before. -/
theorem isMappingOf_parse (entries : List String) : (parse entries).IsMappingOf entries := by
  induction entries using List.reverseRecOn with
  | nil => exact ⟨fun name column => iff_of_false nofun not_lastNames_nil, List.Pairwise.nil⟩
  | append_singleton l x ih =>
      rw [parse_concat]
      cases hx : parseEntry x with
      | none =>
          have hnot := parseEntry_eq_none_iff.mp hx
          refine ⟨fun name column => ?_, ih.order.imp fun h => h.concat x⟩
          rw [ih.column_eq_some_iff, lastNames_concat_iff]
          exact ⟨fun h => .inr ⟨hnot name, h⟩,
            fun h => (h.resolve_left (hnot name column)).2⟩
      | some p =>
          obtain ⟨name', column'⟩ := p
          have hnames := parseEntry_eq_some_iff.mp hx
          refine ⟨fun name column => ?_, ?_⟩
          · rw [lastNames_concat_iff, ← ih.column_eq_some_iff, ColumnMapping.column,
              KeyedList.get?_insert]
            split
            · next heq =>
                subst heq
                refine ⟨fun h => .inl ?_, fun h => ?_⟩
                · obtain rfl := Option.some.inj h
                  exact hnames
                · rcases h with h | ⟨hnot, -⟩
                  · rw [(hnames.unique h).2]
                  · exact absurd hnames (hnot _)
            · next hne =>
                have hnot (c : String) : ¬ Names x name c := fun h => hne (hnames.unique h).1
                exact ⟨fun h => .inr ⟨hnot, h⟩, fun h => (h.resolve_left (hnot column)).2⟩
          · have horder := ih.order.imp fun {a b} (h : Precedes l a b) => h.concat x
            rw [KeyedList.keys_insert]
            split
            · exact horder
            · next hnew =>
                refine List.pairwise_append.mpr ⟨horder, List.pairwise_singleton _ _, ?_⟩
                intro a ha b hb
                obtain rfl := List.mem_singleton.mp hb
                rw [ih.mem_keys_iff] at ha hnew
                exact precedes_concat ha (fun e he column h => hnew ⟨e, he, column, h⟩) x

/-- **Nothing else has what the entries name.** -/
theorem IsMappingOf.eq (h : m.IsMappingOf entries) (h' : m'.IsMappingOf entries) : m = m' := by
  have hasymm : Std.Asymm (Precedes entries) := ⟨fun _ _ hlt => hlt.asymm⟩
  have hirrefl : Std.Irrefl (Precedes entries) := ⟨fun _ hlt => hlt.asymm hlt⟩
  refine KeyedList.eq_of_keys_eq ?_ fun name => Option.ext fun column => ?_
  · exact List.Pairwise.eq_of_mem_iff h.order h'.order fun name =>
      h.mem_keys_iff.trans h'.mem_keys_iff.symm
  · exact (h.column_eq_some_iff name column).trans (h'.column_eq_some_iff name column).symm

/-! ### Entries of mappings -/

/-- The entries that a mapping is written as. -/
def printed (m : ColumnMapping) : List String := m.entries.map fun e => e.1 ++ "=" ++ e.2

/-- A printed pair names its attribute and its column. -/
theorem names_print (hname : name ≠ "" ∧ Text.trim name = name ∧ '=' ∉ name.toList)
    (hcolumn : column ≠ "" ∧ Text.trim column = column) :
    Names (name ++ "=" ++ column) name column := by
  have hstrip {t : String} (ht : Text.trim t = t) : t.toList = Text.strip t.toList := by
    conv_lhs => rw [← ht, Text.trim, String.toList_ofList]
  have hvisible {t : String} (hne : t ≠ "") (ht : Text.trim t = t) :
      ∃ c ∈ t.toList, Text.isBlank c = false := by
    rw [← strip_ne_nil_iff, ← hstrip ht, ← Bool.not_eq_true, List.isEmpty_iff]
    exact fun hnil => hne (String.toList_eq_nil_iff.mp hnil)
  refine ⟨name.toList, column.toList, by simp, hname.2.2, hvisible hname.1 hname.2.1,
    hvisible hcolumn.1 hcolumn.2, hstrip hname.2.1, hstrip hcolumn.2⟩

/-- **A mapping that was read comes back when it is printed and read.** -/
theorem parse_printed (entries : List String) :
    parse (printed (parse entries)) = parse entries := by
  have hread : ∀ e ∈ (parse entries).entries, parseEntry (e.1 ++ "=" ++ e.2) = some e := by
    intro e he
    have hcolumn : (parse entries).column e.1 = some e.2 := KeyedList.get?_eq_some_iff.mpr he
    obtain ⟨-, entry, -, -, hnames, -⟩ :=
      ((isMappingOf_parse entries).column_eq_some_iff e.1 e.2).mp hcolumn
    exact parseEntry_eq_some_iff.mpr (names_print hnames.trimmed.1 hnames.trimmed.2)
  have hall : (printed (parse entries)).filterMap parseEntry = (parse entries).entries := by
    rw [printed, List.filterMap_map]
    exact (List.filterMap_congr hread).trans List.filterMap_some
  conv_lhs => rw [parse, hall]
  exact KeyedList.ofList_entries _

/-- **Reading a list of entries.** What is read is the one mapping that has what the entries name:
the column of the last entry that counts for each attribute, and the attributes in the order of the
first entries that count for them. The attributes are pairwise different, trimmed, not empty, and
without an equals sign; an attribute has no column exactly when no entry counts for it; an entry
that does not count may as well be left out, wherever it stands; and the mapping comes back when
its pairs are printed and read again. -/
theorem parse_eq_iff_isMappingOf (entries : List String) :
    (∀ m, parse entries = m ↔ m.IsMappingOf entries) ∧
      ((parse entries).keys.Nodup ∧ ∀ name ∈ (parse entries).keys,
        name ≠ "" ∧ Text.trim name = name ∧ '=' ∉ name.toList) ∧
      (∀ name, (parse entries).column name = none ↔
        ∀ e ∈ entries, ∀ column, ¬ Names e name column) ∧
      (∀ before e after, entries = before ++ e :: after → (∀ name column, ¬ Names e name column) →
        parse (before ++ after) = parse entries) ∧
      parse (printed (parse entries)) = parse entries := by
  have h := isMappingOf_parse entries
  refine ⟨fun m => ⟨fun heq => heq ▸ h, h.eq⟩, ⟨(parse entries).keys_nodup, fun name hname => ?_⟩,
    fun name => ?_, fun before e after heq hnot => ?_, parse_printed entries⟩
  · obtain ⟨e, -, column, hnames⟩ := h.mem_keys_iff.mp hname
    exact hnames.trimmed.1
  · have hsome : (∃ column, (parse entries).column name = some column) ↔
        ∃ e ∈ entries, ∃ column, Names e name column :=
      KeyedList.mem_keys_iff.symm.trans h.mem_keys_iff
    rw [← Option.not_isSome_iff_eq_none, Option.isSome_iff_exists, hsome]
    simp only [not_exists, not_and]
  · rw [parse, parse, heq, List.filterMap_append, List.filterMap_append,
      List.filterMap_cons_none (parseEntry_eq_none_iff.mpr hnot)]

/-- Of five entries one does not count, and two have one attribute: it has the place of the first
one and the column of the last. -/
theorem parse_eq_iff_isMappingOf_repeated :
    let entries := ["id=a", "username= b", "  =orphan", " id =c d=e", "novalue"]
    (parse entries).entries = [("id", "c d=e"), ("username", "b")] ∧
      (∀ name column, ¬ Names "  =orphan" name column) ∧
      parse ["id=a", "username= b", " id =c d=e", "novalue"] = parse entries := by
  have hnot : ∀ name column, ¬ Names "  =orphan" name column :=
    parseEntry_eq_none_iff.mp (by decide)
  exact ⟨by decide, hnot,
    (parse_eq_iff_isMappingOf _).2.2.2.1 ["id=a", "username= b"] "  =orphan"
      [" id =c d=e", "novalue"] rfl hnot⟩

end ColumnMapping

end RealmDirectory
