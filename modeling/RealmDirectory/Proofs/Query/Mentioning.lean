import RealmDirectory.Proofs.Query.Meaning
import RealmDirectory.Proofs.Query.Places

/-!
# Mentioned placeholders

Whether a template mentions a placeholder is found out by deleting its escapes and looking for
the placeholder in what is left. Filling sets the escapes aside instead, so that nothing meets
across them. The two agree on every placeholder that stands in the template as it is, and they
disagree on a *broken* one: a placeholder with escapes between its characters, which comes
together when the escapes are deleted. Nothing is filled in there.

The template is read once from left to right. The reading passes over an escape as a whole and
over every other character on its own, and the placeholders are looked for at the places that it
comes to.

## Main definitions

* `Reaches`: what lies ahead of the reading.
* `Spells`: a text begins like another one when escapes are passed over.
* `HasBrokenPlace`: the reading comes to a broken placeholder.

## Main results

* `spells_iff`: passing over escapes is deleting them.
* `placesFrom_pos_iff`: a template has a place when the reading comes to a placeholder.
* `mentionsChars_iff`: a template mentions a placeholder when the reading comes to one that may
  be broken.
* `mentions_iff`: a template mentions a placeholder when it has a place for it or a broken one.
* `mentions_iff_place_or_broken`: filling, mentioning and the parameters of a search compared.
-/

namespace RealmDirectory.Template

/-! ### Reading over escapes -/

/-- What lies ahead when a template is read from left to right: an escape is passed over as a
whole, and any other character on its own. -/
inductive Reaches (name : List Char) : List Char → List Char → Prop
  | here (t : List Char) : Reaches name t t
  | escape {y r : List Char} (h : Reaches name y r) : Reaches name (escaped name ++ y) r
  | letter {c : Char} {y r : List Char} (hstart : ¬ escaped name <+: c :: y)
      (h : Reaches name y r) : Reaches name (c :: y) r

/-- A text begins like another one when the escapes in it are passed over. -/
inductive Spells (name : List Char) : List Char → List Char → Prop
  | nil (t : List Char) : Spells name t []
  | escape {y w : List Char} (h : Spells name y w) : Spells name (escaped name ++ y) w
  | letter {c : Char} {y w : List Char} (hstart : ¬ escaped name <+: c :: y)
      (h : Spells name y w) : Spells name (c :: y) (c :: w)

section

variable {name : List Char}

theorem reaches_nil_iff {r : List Char} : Reaches name [] r ↔ r = [] := by
  constructor
  · intro h
    generalize hs : ([] : List Char) = s at h
    cases h with
    | here => rfl
    | escape => exact absurd hs.symm (List.append_ne_nil_of_left_ne_nil escaped_ne_nil _)
    | letter => cases hs
  · rintro rfl
    exact .here []

/-- From an escape, the reading goes on behind it. -/
theorem reaches_escaped_iff {y r : List Char} :
    Reaches name (escaped name ++ y) r ↔ r = escaped name ++ y ∨ Reaches name y r := by
  constructor
  · intro h
    generalize hs : escaped name ++ y = s at h
    cases h with
    | here => exact .inl rfl
    | escape h => exact .inr (List.append_cancel_left hs ▸ h)
    | letter hstart h => exact absurd ⟨y, hs⟩ hstart
  · rintro (rfl | h)
    · exact .here _
    · exact .escape h

/-- From any other character, the reading goes on at the next one. -/
theorem reaches_letter_iff {c : Char} {y r : List Char} (hstart : ¬ escaped name <+: c :: y) :
    Reaches name (c :: y) r ↔ r = c :: y ∨ Reaches name y r := by
  constructor
  · intro h
    generalize hs : c :: y = s at h hstart
    cases h with
    | here => exact .inl rfl
    | escape h => exact absurd ⟨_, rfl⟩ hstart
    | letter _ h => exact .inr ((List.cons.inj hs).2 ▸ h)
  · rintro (rfl | h)
    · exact .here _
    · exact .letter hstart h

/-- An empty text spells nothing. -/
theorem not_spells_nil_cons {d : Char} {w : List Char} : ¬ Spells name [] (d :: w) := by
  intro h
  generalize hs : ([] : List Char) = s at h
  cases h with
  | escape => exact absurd hs.symm (List.append_ne_nil_of_left_ne_nil escaped_ne_nil _)
  | letter => cases hs

theorem spells_escaped_iff {y w : List Char} :
    Spells name (escaped name ++ y) w ↔ Spells name y w := by
  constructor
  · intro h
    generalize hs : escaped name ++ y = s at h
    cases h with
    | nil => exact .nil y
    | escape h => exact List.append_cancel_left hs ▸ h
    | letter hstart h => exact absurd ⟨y, hs⟩ hstart
  · exact .escape

theorem spells_letter_iff {c d : Char} {y w : List Char} (hstart : ¬ escaped name <+: c :: y) :
    Spells name (c :: y) (d :: w) ↔ d = c ∧ Spells name y w := by
  constructor
  · intro h
    generalize hs : c :: y = s at h hstart
    cases h with
    | escape h => exact absurd ⟨_, rfl⟩ hstart
    | letter _ h =>
        obtain ⟨rfl, rfl⟩ := List.cons.inj hs
        exact ⟨rfl, h⟩
  · rintro ⟨rfl, h⟩
    exact .letter hstart h

/-- **Passing over escapes is deleting them.** -/
theorem spells_iff {t w : List Char} :
    Spells name t w ↔ w <+: Text.replace (escaped name) [] t := by
  have hpiece : escaped name ≠ [] := escaped_ne_nil
  induction t using Text.piece_induction hpiece generalizing w with
  | nil =>
      cases w with
      | nil => exact iff_of_true (.nil []) List.nil_prefix
      | cons d w =>
          exact iff_of_false not_spells_nil_cons (by simp [Text.replace, Text.replaceFrom])
  | found y ih =>
      rw [spells_escaped_iff, Text.replace_piece_append escaped_ne_nil]
      exact ih
  | other c y hstart ih =>
      rw [Text.replace_cons hstart]
      cases w with
      | nil => exact iff_of_true (.nil _) List.nil_prefix
      | cons d w =>
          rw [spells_letter_iff hstart, List.cons_prefix_cons]
          exact and_congr_right fun _ => ih

/-! ### Placeholders that the reading comes to -/

/-- **A template has a place** when the reading comes to a placeholder. -/
theorem placesFrom_pos_iff (hname : IsName name) (t : List Char) :
    0 < placesFrom name 0 t ↔ ∃ r, Reaches name t r ∧ placeholder name <+: r := by
  induction pieces [name] t with
  | nil =>
      have hnil : ¬ placeholder name <+: [] := fun h => placeholder_ne_nil (List.prefix_nil.mp h)
      simp [placesFrom, reaches_nil_iff, hnil]
  | @escape _ y hin hrest ih =>
      obtain rfl := (List.mem_singleton.mp hin).symm
      have hno : ¬ placeholder name <+: escaped name ++ y := not_placeholder_prefix_escaped hname y
      simp only [placesFrom_escaped_append, ih, reaches_escaped_iff, or_and_right, exists_or,
        exists_eq_left, hno, false_or]
  | @hole _ y hin hrest ih =>
      obtain rfl := (List.mem_singleton.mp hin).symm
      rw [placesFrom_placeholder_append hname]
      exact iff_of_true (Nat.succ_pos _) ⟨_, .here _, y, rfl⟩
  | @letter c y hstart hrest ih =>
      obtain ⟨hescape, hhole⟩ := hstart name (List.mem_singleton_self name)
      simp only [placesFrom_letter hstart, ih, reaches_letter_iff hescape, or_and_right, exists_or,
        exists_eq_left, hhole, false_or]

/-- **A template mentions a placeholder** when the reading comes to one that may be broken. -/
theorem mentionsChars_iff (t : List Char) :
    mentionsChars t name = true ↔
      ∃ r, Reaches name t r ∧ ¬ escaped name <+: r ∧ Spells name r (placeholder name) := by
  rw [mentionsChars]
  have hpiece : escaped name ≠ [] := escaped_ne_nil
  induction t using Text.piece_induction hpiece with
  | nil =>
      have hnone : ¬ Spells name [] (placeholder name) := not_spells_nil_cons
      simp [Text.replace, Text.replaceFrom, Text.occursIn, placeholder_ne_nil, reaches_nil_iff,
        hnone]
  | found y ih =>
      have hpre : escaped name <+: escaped name ++ y := List.prefix_append _ _
      simp only [Text.replace_piece_append escaped_ne_nil, List.nil_append, ih,
        reaches_escaped_iff, or_and_right, exists_or, exists_eq_left, hpre, not_true, false_and,
        false_or]
  | other c y hstart ih =>
      have hhere : (placeholder name).isPrefixOf (c :: Text.replace (escaped name) [] y) = true ↔
          Spells name (c :: y) (placeholder name) := by
        rw [List.isPrefixOf_iff_prefix, spells_iff, Text.replace_cons hstart]
      simp only [Text.replace_cons hstart, Text.occursIn, Bool.or_eq_true, hhere, ih,
        reaches_letter_iff hstart, or_and_right, exists_or, exists_eq_left, hstart, not_false_iff,
        true_and]

end

/-! ### Broken placeholders -/

/-- The reading comes to a broken placeholder: its characters follow one another when escapes
are passed over, but not as they stand. -/
def HasBrokenPlace (template name : String) : Prop :=
  ∃ r, Reaches name.toList template.toList r ∧ ¬ escaped name.toList <+: r ∧
    Spells name.toList r (placeholder name.toList) ∧ ¬ placeholder name.toList <+: r

/-- A template has a place exactly when the value shows in it. -/
theorem exists_fill_ne_iff {template name : String} (hname : IsName name.toList) :
    (∃ v w, fill template name v ≠ fill template name w) ↔ 0 < places template name := by
  rw [← hasPlace_iff hname, ← Bool.not_eq_false, hasPlace_eq_false_iff hname]
  simp only [not_forall, ne_eq]

/-- **A template mentions a placeholder** when it has a place for it, or a broken one. -/
theorem mentions_iff {template name : String} (hname : IsName name.toList) :
    mentions template name = true ↔
      0 < places template name ∨ HasBrokenPlace template name := by
  have hwhole {r : List Char} (h : placeholder name.toList <+: r) :
      ¬ escaped name.toList <+: r ∧ Spells name.toList r (placeholder name.toList) := by
    obtain ⟨y, rfl⟩ := h
    refine ⟨not_escaped_prefix_placeholder hname y, spells_iff.mpr ?_⟩
    rw [replace_escaped_placeholder_append hname]
    exact List.prefix_append _ _
  rw [mentions, mentionsChars_iff, places, placesFrom_pos_iff hname]
  constructor
  · rintro ⟨r, hreach, hescape, hspells⟩
    by_cases h : placeholder name.toList <+: r
    · exact .inl ⟨r, hreach, h⟩
    · exact .inr ⟨r, hreach, hescape, hspells, h⟩
  · rintro (⟨r, hreach, h⟩ | ⟨r, hreach, hescape, hspells, -⟩)
    · exact ⟨r, hreach, hwhole h⟩
    · exact ⟨r, hreach, hescape, hspells⟩

/-- A search has parameters when it binds a column and the template mentions filters. -/
theorem params_compile_ne_none_iff (template : String) (m : ColumnMapping) (c : Criteria) :
    (CompiledQuery.compile template m c).params ≠ none ↔
      (¬ Criteria.AsksEveryone m c ∧ Criteria.BindsColumn m c) ∧
        mentions template filters = true := by
  cases hmentions : mentions template filters with
  | true =>
      rw [CompiledQuery.compile_of_mentions hmentions, ne_eq,
        Selection.parameters_of_eq_none_iff, not_or, not_not]
      exact (and_iff_left rfl).symm
  | false =>
      rw [CompiledQuery.compile, hmentions]
      simp [Selection.parameters]

/-- **Where mentioning and filling part.** The value shows in a filled template exactly when a
reading that passes over escapes comes to a placeholder. The template mentions the placeholder
in these cases, and also when the reading comes to a broken one only, where nothing is filled
in. So a search has parameters exactly when it binds a column and the template has a place for
its filter or a broken one; with broken ones only, no mark takes them. -/
theorem mentions_iff_place_or_broken (template name : String) (hname : IsName name.toList) :
    ((∃ v w, fill template name v ≠ fill template name w) ↔
        ∃ r, Reaches name.toList template.toList r ∧ placeholder name.toList <+: r) ∧
      (mentions template name = true ↔
        (∃ v w, fill template name v ≠ fill template name w) ∨ HasBrokenPlace template name) ∧
      ∀ (m : ColumnMapping) (c : Criteria),
        (CompiledQuery.compile template m c).params ≠ none ↔
          (¬ Criteria.AsksEveryone m c ∧ Criteria.BindsColumn m c) ∧
            ((∃ v w, fill template filters v ≠ fill template filters w) ∨
              HasBrokenPlace template filters) := by
  refine ⟨?_, ?_, fun m c => ?_⟩
  · rw [exists_fill_ne_iff hname, places, placesFrom_pos_iff hname]
  · rw [exists_fill_ne_iff hname, mentions_iff hname]
  · rw [exists_fill_ne_iff isName_filters, params_compile_ne_none_iff, mentions_iff isName_filters]

/-- An escape inside a placeholder: nothing is filled in, but the template mentions filters, and
a search for a name has a parameter that no mark takes. -/
theorem mentions_iff_place_or_broken_nested :
    let template := "select login from users where '{{{filters}}filters}' <> login"
    let m : ColumnMapping := ColumnMapping.parse ["username=login"]
    let c : Criteria := Criteria.withAttribute .empty "username" "bob"
    IsName filters.toList ∧
      (¬ ∃ v w, fill template filters v ≠ fill template filters w) ∧
      HasBrokenPlace template filters ∧ mentions template filters = true ∧
      (CompiledQuery.compile template m c).params ≠ none := by
  intro template m c
  obtain ⟨-, hmentions, hparams⟩ := mentions_iff_place_or_broken template filters isName_filters
  have hsame : ¬ ∃ v w, fill template filters v ≠ fill template filters w := by
    have hnone : places template filters = 0 := by decide +kernel
    rw [exists_fill_ne_iff isName_filters, hnone]
    exact Nat.lt_irrefl 0
  have htrue : mentions template filters = true := by decide +kernel
  have hbroken : HasBrokenPlace template filters := (hmentions.mp htrue).resolve_left hsame
  refine ⟨isName_filters, hsame, hbroken, htrue, (hparams m c).mpr ⟨?_, .inr hbroken⟩⟩
  have hasks : c.Asks "username" "bob" := ⟨by decide, by decide⟩
  refine ⟨?_, .inl ⟨"username", "bob", "login", hasks, by decide⟩⟩
  rintro (hm | hc | ⟨hnone, -⟩)
  · exact absurd hm (by decide)
  · exact absurd hc (by decide)
  · exact hnone ⟨_, _, hasks⟩

end RealmDirectory.Template
