import RealmDirectory.Proofs.Query.Lookup
import RealmDirectory.Proofs.Query.Places
import RealmDirectory.Proofs.Query.Rendering

/-!
# Fixed statements

Four statements of a directory are made when it is configured: the one that counts the users
and the three that look a single user up. Each has a source, the template that is given for it
or else the base statement, and goes through one or two passes on its way. The count statement
and the derived lookups go through both, first for the select list and then for the filter. A
source is resolved when every place of it is filled and every escape is undone, once, and two
passes resolve it if the first keeps the placeholders of the second. It does so unless the
select list is empty: then what stands on both sides of its place meets, and two braces may.

A lookup with a template of its own goes through the first pass only. Its placeholders for
filters and their escapes stay as they are, so its template is resolved only if it has none.

## Main definitions

* `Keeps`: a pass for one name leaves the placeholders of another as they are.
* `Beside`: what two passes make of a text of which only the first one has a further name.
* `resolve`: a source with every place filled and every escape undone.
* `IsResolved`: a statement is its source with some select list and some filter.

## Main results

* `beside_fillAll`: one more name changes only its own escapes and placeholders.
* `fillAll_fillAll_eq_iff`: when two passes for two names are one.
* `fill_fill_eq_resolve_iff`: when two passes resolve a source.
* `isResolved_fill_iff`: the sources that are resolved by the pass for select lists alone.
* `fixed_statements_resolved`: the fixed statements of a directory and their sources.
-/

namespace RealmDirectory

namespace Template

/-- A source with every place for a select list and for a filter filled, and every escape of
the two undone, in one reading from left to right. -/
def resolve (list filter source : String) : String :=
  String.ofList (fillAll [⟨columns.toList, list.toList⟩, ⟨filters.toList, filter.toList⟩]
    source.toList)

/-- A statement is its source with some select list and some filter in the places for them, and
with every escape undone. -/
def IsResolved (source statement : String) : Prop :=
  ∃ list filter : String, '{' ∉ list.toList ∧ '{' ∉ filter.toList ∧
    statement = resolve list filter source

theorem columns_ne_filters : columns.toList ≠ filters.toList := by decide

/-! ### The places of one placeholder beside another -/

section

variable {fs : List Filling} {f g : Filling}

/-- A placeholder of another name is no place, and neither is an escape of it. -/
theorem occurrences_other_append {name other : List Char} (hname : IsName name)
    (hother : IsName other) (hne : other ≠ name) (y : List Char) :
    Text.occurrences (placeholder name) (placeholder other ++ y) =
        Text.occurrences (placeholder name) y ∧
      Text.occurrences (placeholder name) (escaped other ++ y) =
        Text.occurrences (placeholder name) y := by
  have hpass {x : List Char} (hx : '{' ∉ x) (y : List Char) :
      Text.occurrences (placeholder name) (x ++ y) = Text.occurrences (placeholder name) y :=
    Text.occurrences_append_of_head_notMem hx y
  have hhole (y : List Char) : Text.occurrences (placeholder name) (placeholder other ++ y) =
      Text.occurrences (placeholder name) y := by
    have hstart : ¬ placeholder name <+: placeholder other ++ y := fun h =>
      hne (eq_of_placeholder_isPrefix hname hother h).symm
    have hrest : '{' ∉ other ++ ['}'] := by simpa using hother.open_notMem
    have hbehind := hpass hrest y
    rw [List.append_assoc] at hbehind
    rw [placeholder_append] at hstart ⊢
    exact (Text.occurrences_cons hstart).trans hbehind
  refine ⟨hhole y, ?_⟩
  have hstart : ¬ placeholder name <+: escaped other ++ y :=
    not_placeholder_prefix_escaped hname y
  have hsplit : escaped other ++ y = '{' :: (placeholder other ++ (['}'] ++ y)) := by
    simp [escaped, placeholder]
  rw [hsplit] at hstart ⊢
  rw [Text.occurrences_cons hstart, hhole, hpass (by decide)]

/-- An escape holds a placeholder of its name. -/
theorem occurrences_escaped_append {name : List Char} (hname : IsName name) (y : List Char) :
    Text.occurrences (placeholder name) (escaped name ++ y) =
      Text.occurrences (placeholder name) y + 1 := by
  have hstart : ¬ placeholder name <+: escaped name ++ y :=
    not_placeholder_prefix_escaped hname y
  have hclose : Text.occurrences (placeholder name) (['}'] ++ y) =
      Text.occurrences (placeholder name) y :=
    Text.occurrences_append_of_head_notMem (by decide) y
  have hsplit : escaped name ++ y = '{' :: (placeholder name ++ (['}'] ++ y)) := by
    simp [escaped, placeholder]
  rw [hsplit] at hstart ⊢
  rw [Text.occurrences_cons hstart, Text.occurrences_piece_append placeholder_ne_nil, hclose]

/-- A placeholder that begins at a character is one more than there are behind it. -/
theorem occurrences_cons_of_isPrefix {name : List Char} (hname : IsName name) (c : Char)
    (z : List Char) (hpre : placeholder name <+: c :: z) :
    Text.occurrences (placeholder name) (c :: z) =
      Text.occurrences (placeholder name) z + 1 := by
  obtain ⟨y, hy⟩ := hpre
  have hrest : '{' ∉ name ++ ['}'] := by simpa using hname.open_notMem
  have hpass : Text.occurrences (placeholder name) (name ++ ['}'] ++ y) =
      Text.occurrences (placeholder name) y :=
    Text.occurrences_append_of_head_notMem hrest y
  have hz : name ++ ['}'] ++ y = z := (List.cons.inj hy).2
  rw [← hy, Text.occurrences_piece_append placeholder_ne_nil, ← hz, hpass]

/-- A pass for one name takes no placeholder of another away. -/
theorem occurrences_le_fillAll (hf : IsName f.name) {name : List Char} (hname : IsName name)
    (hne : f.name ≠ name) (hvalue : '{' ∉ f.value) (t : List Char) :
    Text.occurrences (placeholder name) t ≤
      Text.occurrences (placeholder name) (fillAll [f] t) := by
  have hone : AreSeparate [f] := .singleton hf
  have hmem : f ∈ [f] := List.mem_singleton_self f
  have hpass (y : List Char) : Text.occurrences (placeholder name) (f.value ++ y) =
      Text.occurrences (placeholder name) y :=
    Text.occurrences_append_of_head_notMem hvalue y
  induction pieces [f.name, name] t with
  | nil => exact Nat.le_refl _
  | @escape found y hin hrest ih =>
      rcases List.mem_pair.mp hin with rfl | rfl
      · rwa [hone.fillAll_escaped_append hmem, (occurrences_other_append hname hf hne y).2,
          (occurrences_other_append hname hf hne _).1]
      · rw [fillAll_other_escaped hf hname hne, occurrences_escaped_append hname,
          occurrences_escaped_append hname]
        exact Nat.succ_le_succ ih
  | @hole found y hin hrest ih =>
      rcases List.mem_pair.mp hin with rfl | rfl
      · rwa [hone.fillAll_placeholder_append hmem, (occurrences_other_append hname hf hne y).1,
          hpass]
      · rw [fillAll_other_placeholder hf hname hne,
          Text.occurrences_piece_append placeholder_ne_nil,
          Text.occurrences_piece_append placeholder_ne_nil]
        exact Nat.succ_le_succ ih
  | @letter c y hstart hrest ih =>
      have hfstart : IsLetterStart [f.name] (c :: y) := hstart.mono (by simp)
      have hno := (hstart name (List.mem_cons_of_mem _ (List.mem_singleton_self _))).2
      rw [fillAll_letter [f] hfstart, Text.occurrences_cons hno]
      by_cases hpre : placeholder name <+: c :: fillAll [f] y
      · rw [occurrences_cons_of_isPrefix hname c _ hpre]
        exact Nat.le_succ_of_le ih
      · rwa [Text.occurrences_cons hpre]

/-! ### Passes that keep another placeholder -/

/-- A pass keeps the placeholders of another name: there are as many of them afterwards, and as
many of them outside escapes. -/
def Keeps (f : Filling) (name t : List Char) : Prop :=
  Text.occurrences (placeholder name) (fillAll [f] t) = Text.occurrences (placeholder name) t ∧
    placesFrom name 0 (fillAll [f] t) = placesFrom name 0 t

instance (f : Filling) (name t : List Char) : Decidable (Keeps f name t) :=
  inferInstanceAs (Decidable (_ ∧ _))

/-- An escape of a name that is put together costs a place. -/
theorem placesFrom_cons_of_escaped {name : List Char} (hname : IsName name) {c : Char}
    {z : List Char} (hpre : escaped name <+: c :: z) :
    placesFrom name 0 (c :: z) + 1 = placesFrom name 0 z := by
  obtain ⟨y, hy⟩ := hpre
  have hsplit : escaped name ++ y = '{' :: (placeholder name ++ (['}'] ++ y)) := by
    simp [escaped, placeholder]
  have hclose := placesFrom_append_of_notMem name (x := ['}']) (by decide) y
  obtain ⟨-, hz⟩ := List.cons.inj (hsplit.symm.trans hy)
  rw [← hy, placesFrom_escaped_append, ← hz, placesFrom_placeholder_append hname, hclose]

/-- A character in front of a text that makes no placeholder more is a letter, unless it puts an
escape together. -/
theorem letter_or_of_occurrences_le {name : List Char} (hname : IsName name) {c : Char}
    {z : List Char} (h : Text.occurrences (placeholder name) (c :: z) ≤
      Text.occurrences (placeholder name) z) :
    Text.occurrences (placeholder name) (c :: z) = Text.occurrences (placeholder name) z ∧
      (IsLetterStart [name] (c :: z) ∨ placesFrom name 0 (c :: z) + 1 = placesFrom name 0 z) := by
  have hhole : ¬ placeholder name <+: c :: z := by
    intro hpre
    rw [occurrences_cons_of_isPrefix hname c z hpre] at h
    exact Nat.not_succ_le_self _ h
  refine ⟨Text.occurrences_cons hhole, ?_⟩
  by_cases hescape : escaped name <+: c :: z
  · exact .inr (placesFrom_cons_of_escaped hname hescape)
  · exact .inl fun other hin => List.mem_singleton.mp hin ▸ ⟨hescape, hhole⟩

/-- **A pass that puts no placeholder together** leaves no more places than there were, and if
it leaves as many, then the pass behind it finds what it would have found without it. -/
theorem fillAll_fillAll_of_occurrences_eq (hf : IsName f.name) (hg : IsName g.name)
    (hne : f.name ≠ g.name) (hvalue : '{' ∉ f.value) {t : List Char}
    (h : Text.occurrences (placeholder g.name) (fillAll [f] t) =
      Text.occurrences (placeholder g.name) t) :
    placesFrom g.name 0 (fillAll [f] t) ≤ placesFrom g.name 0 t ∧
      (placesFrom g.name 0 (fillAll [f] t) = placesFrom g.name 0 t →
        fillAll [g] (fillAll [f] t) = fillAll [f, g] t) := by
  have hfirst : AreSeparate [f] := .singleton hf
  have hsecond : AreSeparate [g] := .singleton hg
  have hboth : AreSeparate [f, g] := .pair hf hg hne
  have hmemf : f ∈ [f] := List.mem_singleton_self f
  have hmemg : g ∈ [g] := List.mem_singleton_self g
  have hpass (y : List Char) : Text.occurrences (placeholder g.name) (f.value ++ y) =
      Text.occurrences (placeholder g.name) y :=
    Text.occurrences_append_of_head_notMem hvalue y
  induction pieces [f.name, g.name] t with
  | nil => exact ⟨Nat.le_refl _, fun _ => rfl⟩
  | @escape name y hin hrest ih =>
      rcases List.mem_pair.mp hin with rfl | rfl
      · rw [hfirst.fillAll_escaped_append hmemf, (occurrences_other_append hg hf hne y).2,
          (occurrences_other_append hg hf hne _).1] at h
        rw [hfirst.fillAll_escaped_append hmemf, placesFrom_other_placeholder hg hf hne,
          placesFrom_other_escaped hg hf hne, fillAll_other_placeholder hg hf hne.symm,
          hboth.fillAll_escaped_append List.mem_cons_self]
        exact (ih h).imp_right fun heq hplaces => by rw [heq hplaces]
      · rw [fillAll_other_escaped hf hg hne, occurrences_escaped_append hg,
          occurrences_escaped_append hg] at h
        rw [fillAll_other_escaped hf hg hne, placesFrom_escaped_append,
          placesFrom_escaped_append, hsecond.fillAll_escaped_append hmemg,
          hboth.fillAll_escaped_append (List.mem_cons_of_mem f hmemg)]
        exact (ih (Nat.succ.inj h)).imp_right fun heq hplaces => by rw [heq hplaces]
  | @hole name y hin hrest ih =>
      rcases List.mem_pair.mp hin with rfl | rfl
      · rw [hfirst.fillAll_placeholder_append hmemf, (occurrences_other_append hg hf hne y).1,
          hpass] at h
        rw [hfirst.fillAll_placeholder_append hmemf, placesFrom_append_of_notMem _ hvalue,
          placesFrom_other_placeholder hg hf hne, fillAll_append_of_notMem [g] hvalue,
          hboth.fillAll_placeholder_append List.mem_cons_self]
        exact (ih h).imp_right fun heq hplaces => by rw [heq hplaces]
      · rw [fillAll_other_placeholder hf hg hne,
          Text.occurrences_piece_append placeholder_ne_nil,
          Text.occurrences_piece_append placeholder_ne_nil] at h
        rw [fillAll_other_placeholder hf hg hne, placesFrom_placeholder_append hg,
          placesFrom_placeholder_append hg, hsecond.fillAll_placeholder_append hmemg,
          hboth.fillAll_placeholder_append (List.mem_cons_of_mem f hmemg)]
        obtain ⟨hle, heq⟩ := ih (Nat.succ.inj h)
        exact ⟨Nat.succ_le_succ hle, fun hplaces => by rw [heq (Nat.succ.inj hplaces)]⟩
  | @letter c y hstart hrest ih =>
      have hfstart : IsLetterStart [f.name] (c :: y) := hstart.mono (by simp)
      have hgstart : IsLetterStart [g.name] (c :: y) := hstart.mono (by simp)
      have hmore := occurrences_le_fillAll hf hg hne hvalue y
      rw [fillAll_letter [f] hfstart,
        Text.occurrences_cons (hgstart g.name (List.mem_singleton_self _)).2] at h
      rw [fillAll_letter [f] hfstart, placesFrom_letter hgstart, fillAll_letter [f, g] hstart]
      -- A placeholder that is put together here would be one more than there were.
      obtain ⟨hsame, hletter⟩ := letter_or_of_occurrences_le hg (h.trans_le hmore)
      obtain ⟨hle, heq⟩ := ih (hsame.symm.trans h)
      rcases hletter with hletter | hless
      · rw [placesFrom_letter hletter, fillAll_letter [g] hletter]
        exact ⟨hle, fun hplaces => by rw [heq hplaces]⟩
      · -- An escape that is put together here costs a place.
        omega

/-! ### What one more name changes in a pass -/

theorem count_open_placeholder {name : List Char} (hname : IsName name) :
    (placeholder name).count '{' = 1 := by
  simp [placeholder, List.count_eq_zero.mpr hname.open_notMem]

/-- An escape has one opening brace more than the placeholder. -/
theorem count_open_escaped (name : List Char) :
    (escaped name).count '{' = (placeholder name).count '{' + 1 := by
  simp [escaped, placeholder]

/-- A text, and what two passes make of it of which only the first one has a further name. -/
inductive Beside (g : Filling) : List Char → List Char → List Char → Prop
  | nil : Beside g [] [] []
  /-- What is no piece of the further name becomes the same in both. -/
  | other (p q : List Char) {y u v : List Char}
      (hcount : Text.occurrences (placeholder g.name) (p ++ y) =
        Text.occurrences (placeholder g.name) y)
      (hplaces : placesFrom g.name 0 (p ++ y) = placesFrom g.name 0 y) (hrest : Beside g y u v) :
      Beside g (p ++ y) (q ++ u) (q ++ v)
  /-- An escape of the further name is undone by the first. -/
  | escape {y u v : List Char} (hrest : Beside g y u v) :
      Beside g (escaped g.name ++ y) (placeholder g.name ++ u) (escaped g.name ++ v)
  /-- A placeholder of the further name is filled by the first. -/
  | hole {y u v : List Char} (hrest : Beside g y u v) :
      Beside g (placeholder g.name ++ y) (g.value ++ u) (placeholder g.name ++ v)

/-- **One more name changes only its own escapes and placeholders.** -/
theorem beside_fillAll (h : AreSeparate (fs ++ [g])) (hne : ∀ f ∈ fs, f.name ≠ g.name)
    (t : List Char) : Beside g t (fillAll (fs ++ [g]) t) (fillAll fs t) := by
  have hfs : AreSeparate fs := h.mono fun f hf => List.mem_append_left _ hf
  have hmem : g ∈ fs ++ [g] := List.mem_append_right _ (List.mem_singleton_self g)
  have hg : IsName g.name := h.isName g hmem
  induction pieces ((fs ++ [g]).map Filling.name) t with
  | nil => exact .nil
  | @escape name y hname hrest ih =>
      obtain ⟨f, hin, rfl⟩ := List.mem_map.mp hname
      rcases List.mem_append.mp hin with hf | hf
      · have hname := h.isName f hin
        rw [h.fillAll_escaped_append hin, hfs.fillAll_escaped_append hf]
        exact .other _ _ (occurrences_other_append hg hname (hne f hf) y).2
          (placesFrom_other_escaped hg hname (hne f hf) y) ih
      · obtain rfl := List.mem_singleton.mp hf
        rw [h.fillAll_escaped_append hmem, hfs.fillAll_escaped_append_of_ne hg hne]
        exact .escape ih
  | @hole name y hname hrest ih =>
      obtain ⟨f, hin, rfl⟩ := List.mem_map.mp hname
      rcases List.mem_append.mp hin with hf | hf
      · have hname := h.isName f hin
        rw [h.fillAll_placeholder_append hin, hfs.fillAll_placeholder_append hf]
        exact .other _ _ (occurrences_other_append hg hname (hne f hf) y).1
          (placesFrom_other_placeholder hg hname (hne f hf) y) ih
      · obtain rfl := List.mem_singleton.mp hf
        rw [h.fillAll_placeholder_append hmem, hfs.fillAll_placeholder_append_of_ne hg hne]
        exact .hole ih
  | @letter c y hstart hrest ih =>
      have hfsstart : IsLetterStart (fs.map Filling.name) (c :: y) :=
        hstart.mono (List.map_subset _ (List.subset_append_left fs [g]))
      have hgstart : IsLetterStart [g.name] (c :: y) := hstart.mono (by simp)
      rw [fillAll_letter (fs ++ [g]) hstart, fillAll_letter fs hfsstart]
      exact .other [c] [c] (Text.occurrences_cons (hgstart g.name (List.mem_singleton_self _)).2)
        (placesFrom_letter hgstart) ih

/-- A pass without names copies. -/
theorem fillAll_nil (t : List Char) : fillAll [] t = t := by
  induction t with
  | nil => rfl
  | cons c y ih => rw [fillAll_letter [] fun name hin => absurd hin List.not_mem_nil, ih]

theorem beside_fillAll_singleton (hg : IsName g.name) (t : List Char) :
    Beside g t (fillAll [g] t) t := by
  have hnone : ∀ f ∈ ([] : List Filling), f.name ≠ g.name := by simp
  have h := beside_fillAll (.singleton hg) hnone t
  rwa [fillAll_nil] at h

theorem beside_fillAll_pair (hf : IsName f.name) (hg : IsName g.name) (hne : f.name ≠ g.name)
    (t : List Char) : Beside g t (fillAll [f, g] t) (fillAll [f] t) := by
  have hother : ∀ f' ∈ [f], f'.name ≠ g.name := by simpa using hne
  exact beside_fillAll (.pair hf hg hne) hother t

/-- **Each escape and each placeholder of a further name loses one brace**, which a pass without
that name leaves where it is. -/
theorem Beside.count_open (hg : IsName g.name) (hvalue : '{' ∉ g.value) {t u v : List Char}
    (h : Beside g t u v) :
    u.count '{' + Text.occurrences (placeholder g.name) t = v.count '{' := by
  induction h with
  | nil => rfl
  | other p q hcount hplaces hrest ih =>
      rw [hcount, List.count_append, List.count_append, ← ih, Nat.add_assoc]
  | escape hrest ih =>
      rw [occurrences_escaped_append hg, List.count_append, List.count_append, ← ih,
        count_open_escaped]
      omega
  | hole hrest ih =>
      rw [Text.occurrences_piece_append placeholder_ne_nil, List.count_append, List.count_append,
        ← ih, List.count_eq_zero.mpr hvalue, count_open_placeholder hg]
      omega

/-- **A further name brings its value into each of its places**, and no other character that is
in no piece. -/
theorem Beside.count_value (hg : IsName g.name) {d : Char} (hd : IsOutside g.name d)
    {t u v : List Char} (h : Beside g t u v) :
    u.count d = v.count d + placesFrom g.name 0 t * g.value.count d := by
  have hhole : (placeholder g.name).count d = 0 := List.count_eq_zero.mpr hd.notMem_placeholder
  have hescape : (escaped g.name).count d = 0 := List.count_eq_zero.mpr hd.notMem_escaped
  induction h with
  | nil => simp [placesFrom]
  | other p q hcount hplaces hrest ih =>
      rw [hplaces, List.count_append, List.count_append, ih, Nat.add_assoc]
  | escape hrest ih =>
      rw [placesFrom_escaped_append, List.count_append, List.count_append, ih, hhole, hescape]
      omega
  | hole hrest ih =>
      rw [placesFrom_placeholder_append hg, List.count_append, List.count_append, ih, hhole,
        Nat.succ_mul]
      omega

/-- A further name that does not occur may be left out. -/
theorem Beside.eq_of_occurrences (hg : IsName g.name) {t u v : List Char} (h : Beside g t u v)
    (hnone : Text.occurrences (placeholder g.name) t = 0) : u = v := by
  induction h with
  | nil => rfl
  | other p q hcount hplaces hrest ih => rw [ih (hcount ▸ hnone)]
  | escape hrest ih =>
      rw [occurrences_escaped_append hg] at hnone
      exact absurd hnone (Nat.succ_ne_zero _)
  | hole hrest ih =>
      rw [Text.occurrences_piece_append placeholder_ne_nil] at hnone
      exact absurd hnone (Nat.succ_ne_zero _)

/-- **Two passes for two names are one exactly when the first keeps the second name**: what
stands in the result tells both numbers of placeholders. -/
theorem fillAll_fillAll_eq_iff (hf : IsName f.name) (hg : IsName g.name) (hne : f.name ≠ g.name)
    (hfvalue : '{' ∉ f.value) (hgvalue : '{' ∉ g.value) {d : Char} (hd : IsOutside g.name d)
    (hmem : d ∈ g.value) (t : List Char) :
    fillAll [g] (fillAll [f] t) = fillAll [f, g] t ↔ Keeps f g.name t := by
  constructor
  · intro heq
    have hsecond := beside_fillAll_singleton hg (fillAll [f] t)
    have hboth := beside_fillAll_pair hf hg hne t
    have hopen := hsecond.count_open hg hgvalue
    have hopen' := hboth.count_open hg hgvalue
    have hvalue := hsecond.count_value hg hd
    have hvalue' := hboth.count_value hg hd
    rw [heq] at hopen hvalue
    refine ⟨by omega, Nat.eq_of_mul_eq_mul_right (List.count_pos_iff.mpr hmem) ?_⟩
    omega
  · intro hkeeps
    exact (fillAll_fillAll_of_occurrences_eq hf hg hne hfvalue hkeeps.1).2 hkeeps.2

end

/-! ### Sources and their statements -/

section

variable {source list filter : String}

/-- Filling a placeholder of a text without marks is one pass. -/
theorem toList_fill {t name value : String} (hname : IsName name.toList)
    (ht : '\x01' ∉ t.toList) (hvalue : '\x01' ∉ value.toList) :
    (fill t name value).toList = fillAll [⟨name.toList, value.toList⟩] t.toList := by
  rw [fill, String.toList_ofList, fillChars_eq_fillAll hname hvalue ht]

theorem toList_fill_fill (hsource : '\x01' ∉ source.toList) (hlist : '\x01' ∉ list.toList)
    (hfilter : '\x01' ∉ filter.toList) :
    (fill (fill source columns list) filters filter).toList =
      fillAll [⟨filters.toList, filter.toList⟩]
        (fillAll [⟨columns.toList, list.toList⟩] source.toList) := by
  have hfirst := toList_fill isName_columns hsource hlist
  have hmark := mark_notMem_fillAll (f := ⟨columns.toList, list.toList⟩) isName_columns hlist
    hsource
  rw [← hfirst] at hmark ⊢
  exact toList_fill isName_filters hmark hfilter

/-- The pass for a select list keeps the placeholders for filters of a source. -/
def KeepsFilters (source list : String) : Prop :=
  Keeps ⟨columns.toList, list.toList⟩ filters.toList source.toList

instance (source list : String) : Decidable (KeepsFilters source list) :=
  inferInstanceAs (Decidable (Keeps _ _ _))

/-- **Two passes resolve a source exactly when the first keeps the placeholders for filters.** -/
theorem fill_fill_eq_resolve_iff (hsource : '\x01' ∉ source.toList) (hlist : IsPlain list.toList)
    (hfilter : IsPlain filter.toList) (hequals : '=' ∈ filter.toList) :
    fill (fill source columns list) filters filter = resolve list filter source ↔
      KeepsFilters source list := by
  have hd : IsOutside filters.toList '=' := by decide
  rw [← String.toList_inj, toList_fill_fill hsource hlist.mark_notMem hfilter.mark_notMem, resolve,
    String.toList_ofList]
  exact fillAll_fillAll_eq_iff (f := ⟨columns.toList, list.toList⟩)
    (g := ⟨filters.toList, filter.toList⟩) isName_columns isName_filters columns_ne_filters
    hlist.open_notMem hfilter.open_notMem hd hequals source.toList

/-- An empty select list keeps them in a usual statement. Between two braces it lets the braces
meet, and then the second pass finds an escape where there was a place. -/
example :
    KeepsFilters "select {columns} from users where {filters}" "" ∧
      ¬ KeepsFilters "select '{{columns}{filters}}' from users" "" := by
  decide +kernel

/-- A select list of which no placeholder for filters can be made keeps them. -/
theorem keepsFilters_of_isInert (hsource : '\x01' ∉ source.toList) (hlist : IsPlain list.toList)
    (hinert : IsInert filters.toList list.toList) : KeepsFilters source list := by
  have hfilter : IsPlain "1=1".toList := by decide
  refine (fill_fill_eq_resolve_iff hsource hlist hfilter (by decide)).mp ?_
  rw [← String.toList_inj, resolve, String.toList_ofList]
  exact fill_fill hsource isName_columns isName_filters (by decide) hinert hlist.mark_notMem
    hfilter.mark_notMem

/-- **The pass for select lists alone resolves the sources without any placeholder for
filters**, escaped or not. -/
theorem isResolved_fill_iff (hsource : '\x01' ∉ source.toList) (hlist : IsPlain list.toList) :
    IsResolved source (fill source columns list) ↔
      Text.occursIn (placeholder filters.toList) source.toList = false := by
  have hfill := toList_fill isName_columns hsource hlist.mark_notMem
  rw [← Bool.not_eq_true, Text.occursIn_eq_true_iff placeholder_ne_nil, Nat.pos_iff_ne_zero,
    not_not]
  have hboth (value value' : List Char) := beside_fillAll_pair (f := ⟨columns.toList, value⟩)
    (g := ⟨filters.toList, value'⟩) isName_columns isName_filters columns_ne_filters source.toList
  constructor
  · rintro ⟨other, filter, hopen, hfilter, heq⟩
    have hone (value : List Char) := beside_fillAll_singleton (g := ⟨columns.toList, value⟩)
      isName_columns source.toList
    have hlost := (hone list.toList).count_open isName_columns hlist.open_notMem
    have hlost' := (hone other.toList).count_open isName_columns hopen
    have hfewer := (hboth other.toList filter.toList).count_open isName_filters hfilter
    have hresolved : fillAll [⟨columns.toList, list.toList⟩] source.toList =
        fillAll [⟨columns.toList, other.toList⟩, ⟨filters.toList, filter.toList⟩]
          source.toList := by
      rw [← hfill, heq, resolve, String.toList_ofList]
    rw [hresolved] at hlost
    dsimp only at hlost hlost' hfewer
    omega
  · intro hnone
    refine ⟨list, "", hlist.open_notMem, by decide, ?_⟩
    rw [← String.toList_inj, hfill, resolve, String.toList_ofList]
    exact ((hboth list.toList "".toList).eq_of_occurrences isName_filters hnone).symm

end

end Template

namespace TemplateSet

open Template

variable {m : ColumnMapping}

/-- The filter of a lookup is plain when the columns are. -/
theorem isPlain_lookupFilter (hm : m.IsPlain) (name : String) :
    IsPlain (lookupFilter m name).toList := by
  have hnotMem {x : Char} (hx : Selection.IsForeign x) (havoids : m.Avoids x) :
      x ∉ (lookupFilter m name).toList := by
    rw [← condition_lookupSelection m name ""]
    exact Selection.notMem_condition hx (notMem_columns_lookupSelection havoids name "") true
  exact ⟨hnotMem (by decide) hm.avoids_open, hnotMem (by decide) hm.avoids_close,
    hnotMem (by decide) hm.avoids_mark⟩

/-- The filter of a lookup compares something. -/
theorem equals_mem_lookupFilter (m : ColumnMapping) (name : String) :
    '=' ∈ (lookupFilter m name).toList := by
  rw [lookupFilter]
  split
  · decide
  · split
    · simp [Selection.comparison]
    · decide

/-- What counts as given was configured. -/
theorem mem_of_given?_eq_some {template : Option String} {s : String}
    (h : given? template = some s) : s ∈ template :=
  (Option.filter_eq_some_iff.mp h).1

/-- The count statement is its source, filled for everyone. -/
theorem countFor_eq (t : Templates) (m : ColumnMapping) :
    countFor t m =
      match given? t.count with
      | some s => fill (withColumns s m []) filters "1=1"
      | none => fill (withColumns t.base m ["count(*)"]) filters "1=1" := by
  have heveryone : Selection.of m .empty = .everyone :=
    Selection.of_seeksNothing ⟨fun h => Criteria.hasAttribute_iff.mp h rfl, nofun⟩
  rw [countFor, CompiledQuery.query_compile, heveryone]
  cases given? t.count <;> rfl

end TemplateSet

namespace LookupKey

open TemplateSet

variable {t : Templates} {m : ColumnMapping} {engine : HashEngine} {dialect : Dialect}
  {allowDelete allowOverwrite : Bool}

/-- A lookup with a template of its own gets a select list, and nothing else. -/
theorem statement_of_given (key : LookupKey) {s : String}
    (h : given? (key.template t) = some s) :
    key.statement (ofTemplates t m engine dialect allowDelete allowOverwrite) =
      Template.fill s Template.columns m.selectList := by
  cases key with
  | id | username | email =>
      simp only [template] at h
      simp only [statement, ofTemplates, findFor, h]
      rfl

end LookupKey

namespace Template

open TemplateSet (ofTemplates given? lookupFilter)

variable {m : ColumnMapping}

/-- **The fixed statements of a directory and their sources.** A count that is derived from the
base statement resolves it. A count with a template of its own, and a lookup that is derived from
the base statement, resolve their sources exactly when the select list keeps the placeholders for
filters, as every list does that is not empty. A lookup with a template of its own gets the first
pass only, which resolves its template exactly when that has no placeholder for filters, escaped
or not. -/
theorem fixed_statements_resolved (t : Templates) (engine : HashEngine) (dialect : Dialect)
    (allowDelete allowOverwrite : Bool) (hm : m.IsPlain) (hbase : '\x01' ∉ t.base.toList)
    (hcount : ∀ s ∈ t.count, '\x01' ∉ s.toList)
    (hfind : ∀ key : LookupKey, ∀ s ∈ key.template t, '\x01' ∉ s.toList) :
    let set := ofTemplates t m engine dialect allowDelete allowOverwrite
    (given? t.count = none → set.countQuery = resolve "count(*)" "1=1" t.base) ∧
      (∀ s, given? t.count = some s →
        (set.countQuery = resolve m.selectList "1=1" s ↔ KeepsFilters s m.selectList)) ∧
      (∀ key : LookupKey, given? (key.template t) = none →
        (key.statement set = resolve m.selectList (lookupFilter m key.name) t.base ↔
          KeepsFilters t.base m.selectList)) ∧
      (m.isEmpty = false → ∀ s, '\x01' ∉ s.toList → KeepsFilters s m.selectList) ∧
      ∀ (key : LookupKey) (s : String), given? (key.template t) = some s →
        (key.statement set).toList = fillAll [⟨columns.toList, m.selectList.toList⟩] s.toList ∧
          (IsResolved s (key.statement set) ↔
            Text.occursIn (placeholder filters.toList) s.toList = false) := by
  intro set
  have hlist : IsPlain m.selectList.toList := hm.selectList
  have hall : IsPlain "1=1".toList := by decide
  refine ⟨fun hnone => ?_, fun s hs => ?_, fun key hnone => ?_, fun hempty s hmark => ?_,
    fun key s hs => ?_⟩
  · have hcounted : IsPlain "count(*)".toList := by decide
    have hinert : IsInert filters.toList "count(*)".toList :=
      ⟨by decide, by decide, '*', by decide, by decide⟩
    have hset : set.countQuery = fill (fill t.base columns "count(*)") filters "1=1" := by
      simp only [set, ofTemplates, TemplateSet.countFor_eq, hnone]
      rfl
    exact hset.trans ((fill_fill_eq_resolve_iff hbase hcounted hall (by decide)).mpr
      (keepsFilters_of_isInert hbase hcounted hinert))
  · have hset : set.countQuery = fill (fill s columns m.selectList) filters "1=1" := by
      simp only [set, ofTemplates, TemplateSet.countFor_eq, hs]
      rfl
    rw [hset]
    have hmark := hcount s (TemplateSet.mem_of_given?_eq_some hs)
    exact fill_fill_eq_resolve_iff hmark hlist hall (by decide)
  · rw [LookupKey.statement_eq key hnone]
    exact fill_fill_eq_resolve_iff hbase hlist (TemplateSet.isPlain_lookupFilter hm key.name)
      (TemplateSet.equals_mem_lookupFilter m key.name)
  · exact keepsFilters_of_isInert hmark hlist (ColumnMapping.isInert_selectList hempty hm)
  · have hmark := hfind key s (TemplateSet.mem_of_given?_eq_some hs)
    rw [LookupKey.statement_of_given key hs]
    exact ⟨toList_fill isName_columns hmark hlist.mark_notMem, isResolved_fill_iff hmark hlist⟩

/-- A lookup with a template of its own keeps its filter open and its escape whole, and no select
list and no filter could have made that statement. The count and the lookup that are derived
from the base statement have neither left. -/
theorem fixed_statements_resolved_own_lookup :
    let own := "select {columns}, '{{columns}} {{filters}}' from users " ++
      "where user_id = ? and {filters}"
    let t : Templates :=
      { base := "select {columns}, '{{filters}}' from users where {filters}"
        findById := some own
        findPasswordHash := "" }
    let m := ColumnMapping.parse ["id=user_id", "email=mail"]
    let set := ofTemplates t m { algorithm := .bcrypt } .postgreSql false false
    (m.IsPlain ∧ '\x01' ∉ t.base.toList ∧ (∀ s ∈ t.count, '\x01' ∉ s.toList) ∧
        ∀ key : LookupKey, ∀ s ∈ key.template t, '\x01' ∉ s.toList) ∧
      set.countQuery = "select count(*), '{filters}' from users where 1=1" ∧
      set.findByEmail = "select user_id AS id, mail AS email, '{filters}' from users " ++
        "where  UPPER(mail) = ?  " ∧
      set.findById = "select user_id AS id, mail AS email, '{columns} {{filters}}' from users " ++
        "where user_id = ? and {filters}" ∧
      ¬ IsResolved own set.findById := by
  intro own t m set
  have hm : m.IsPlain := by decide
  have hbase : '\x01' ∉ t.base.toList := by decide
  have hcount : ∀ s ∈ t.count, '\x01' ∉ s.toList := nofun
  have hfind : ∀ key : LookupKey, ∀ s ∈ key.template t, '\x01' ∉ s.toList := by
    rintro (_ | _ | _) s hs
    · obtain rfl := Option.some.inj hs
      decide
    · cases hs
    · cases hs
  obtain ⟨hderived, -, hlookup, hkeeps, hown⟩ :=
    fixed_statements_resolved t { algorithm := .bcrypt } .postgreSql false false hm hbase hcount
      hfind
  obtain ⟨htext, hresolved⟩ := hown .id own (by decide +kernel)
  have hemail := (hlookup .email rfl).mpr (hkeeps (by decide) t.base hbase)
  refine ⟨⟨hm, hbase, hcount, hfind⟩, (hderived rfl).trans (by decide +kernel),
    hemail.trans (by decide +kernel), ?_, fun h => ?_⟩
  · rw [← String.toList_inj]
    exact htext.trans (by decide +kernel)
  · exact absurd (hresolved.mp h) (by decide)

end Template

end RealmDirectory
