import RealmDirectory.Proofs.Query.OnePass

/-!
# Counting the places of a template

A template can have any number of places for a value. They are counted in one reading from
left to right, which passes over escapes. Filling puts the value in each of them, so what
stands in the filled template can be counted from the template and the value. This holds of
every template and every value: the marks under which escapes are set aside, and whatever
they form together with the text around them, hold none of the characters that are counted.

## Main definitions

* `places`: the number of places for a value.

## Main results

* `occurrences_aside`: the places are the placeholders that filling finds.
* `count_fill`: how often a character stands in a filled template.
* `hasPlace_iff`: a template has a place when there is one to count.
* `places_fill`: filling another placeholder leaves the places as they are.
-/

namespace RealmDirectory.Template

/-- The number of placeholders in a template outside its escapes, after passing over `skip`
characters that belong to an escape or a placeholder found before. -/
def placesFrom (name : List Char) : Nat → List Char → Nat
  | _, [] => 0
  | skip + 1, _ :: r => placesFrom name skip r
  | 0, c :: r =>
      if (escaped name).isPrefixOf (c :: r) then
        placesFrom name ((escaped name).length - 1) r
      else if (placeholder name).isPrefixOf (c :: r) then
        placesFrom name ((placeholder name).length - 1) r + 1
      else placesFrom name 0 r

/-- The number of places for a value in a template. -/
def places (template name : String) : Nat := placesFrom name.toList 0 template.toList

/-! ### Places, piece by piece -/

section

variable {name : List Char}

/-- Characters that belong to a piece are passed over. -/
theorem placesFrom_append (name skipped y : List Char) :
    placesFrom name skipped.length (skipped ++ y) = placesFrom name 0 y := by
  induction skipped with
  | nil => rfl
  | cons c s ih => simpa [placesFrom] using ih

/-- An escape is no place. -/
theorem placesFrom_escaped_append (name y : List Char) :
    placesFrom name 0 (escaped name ++ y) = placesFrom name 0 y := by
  have hpre : (escaped name).isPrefixOf (escaped name ++ y) = true :=
    List.isPrefixOf_iff_prefix.mpr ⟨y, rfl⟩
  have hskip := placesFrom_append name ('{' :: (name ++ ['}', '}'])) y
  simp only [escaped, List.cons_append] at hpre hskip ⊢
  simp only [placesFrom, escaped, hpre, if_true, List.length_cons, Nat.add_sub_cancel]
  exact hskip

/-- A placeholder is a place. -/
theorem placesFrom_placeholder_append (hname : IsName name) (y : List Char) :
    placesFrom name 0 (placeholder name ++ y) = placesFrom name 0 y + 1 := by
  have hescape : ¬ (escaped name).isPrefixOf (placeholder name ++ y) = true := fun hpre =>
    not_escaped_prefix_placeholder hname y (List.isPrefixOf_iff_prefix.mp hpre)
  have hpre : (placeholder name).isPrefixOf (placeholder name ++ y) = true :=
    List.isPrefixOf_iff_prefix.mpr ⟨y, rfl⟩
  have hskip := placesFrom_append name (name ++ ['}']) y
  simp only [placeholder, List.cons_append] at hescape hpre hskip ⊢
  simp only [placesFrom, placeholder, hescape, Bool.false_eq_true, if_false, hpre, if_true,
    List.length_cons, Nat.add_sub_cancel, hskip]

/-- A letter is no place. -/
theorem placesFrom_letter {c : Char} {y : List Char} (hstart : IsLetterStart [name] (c :: y)) :
    placesFrom name 0 (c :: y) = placesFrom name 0 y := by
  obtain ⟨hescape, hhole⟩ := hstart name (List.mem_singleton_self name)
  simp only [placesFrom, List.isPrefixOf_iff_prefix, hescape, hhole, if_false]

/-- Text without an opening brace has no places. -/
theorem placesFrom_append_of_notMem (name : List Char) {x : List Char} (hx : '{' ∉ x)
    (y : List Char) : placesFrom name 0 (x ++ y) = placesFrom name 0 y := by
  induction x with
  | nil => rfl
  | cons c x ih =>
      have hstart : IsLetterStart [name] (c :: (x ++ y)) := by
        intro other _
        have hc {z : List Char} : ¬ '{' :: z <+: c :: (x ++ y) := fun hpre =>
          hx ((List.cons_prefix_cons.mp hpre).1 ▸ List.mem_cons_self)
        exact ⟨hc, hc⟩
      rw [List.cons_append, placesFrom_letter hstart,
        ih fun hmem => hx (List.mem_cons_of_mem c hmem)]

/-- A placeholder of another name is no place. -/
theorem placesFrom_other_placeholder {other : List Char} (hname : IsName name)
    (hother : IsName other) (hne : other ≠ name) (y : List Char) :
    placesFrom name 0 (placeholder other ++ y) = placesFrom name 0 y := by
  have hstart : IsLetterStart [name] (placeholder other ++ y) := by
    intro _ hin
    obtain rfl := (List.mem_singleton.mp hin).symm
    exact ⟨not_escaped_prefix_placeholder hother y,
      fun h => hne (eq_of_placeholder_isPrefix hname hother h).symm⟩
  have hrest : '{' ∉ other ++ ['}'] := by simpa using hother.open_notMem
  have hpass := placesFrom_append_of_notMem name hrest y
  rw [List.append_assoc] at hpass
  rw [placeholder_append] at hstart ⊢
  exact (placesFrom_letter hstart).trans hpass

/-- An escape of another name is no place. -/
theorem placesFrom_other_escaped {other : List Char} (hname : IsName name)
    (hother : IsName other) (hne : other ≠ name) (y : List Char) :
    placesFrom name 0 (escaped other ++ y) = placesFrom name 0 y := by
  have hstart : IsLetterStart [name] (escaped other ++ y) := by
    intro _ hin
    obtain rfl := (List.mem_singleton.mp hin).symm
    exact ⟨fun h => hne (eq_of_escaped_isPrefix hname hother h).symm,
      not_placeholder_prefix_escaped hname y⟩
  have hsplit : escaped other ++ y = '{' :: (placeholder other ++ (['}'] ++ y)) := by
    simp [escaped, placeholder]
  have hclose := placesFrom_append_of_notMem name (x := ['}']) (by decide) y
  rw [hsplit] at hstart ⊢
  rw [placesFrom_letter hstart, placesFrom_other_placeholder hname hother hne, hclose]

/-- **The places are the placeholders that are found when the escapes are set aside.** -/
theorem occurrences_aside (hname : IsName name) (t : List Char) :
    Text.occurrences (placeholder name) (Text.replace (escaped name) (aside name) t) =
      placesFrom name 0 t := by
  have hopen : '{' ∉ aside name := by simpa [aside] using hname.open_notMem
  have hmark : '\x01' ∉ placeholder name := by simpa [placeholder] using hname.mark_notMem
  induction pieces [name] t with
  | nil => rfl
  | @escape _ y hin hrest ih =>
      obtain rfl := (List.mem_singleton.mp hin).symm
      have hpass (z : List Char) : Text.occurrences (placeholder name) (aside name ++ z) =
          Text.occurrences (placeholder name) z :=
        Text.occurrences_append_of_head_notMem hopen z
      rw [Text.replace_piece_append escaped_ne_nil, hpass, placesFrom_escaped_append, ih]
  | @hole _ y hin hrest ih =>
      obtain rfl := List.mem_singleton.mp hin
      rw [replace_escaped_placeholder_append hname,
        Text.occurrences_piece_append placeholder_ne_nil, placesFrom_placeholder_append hname, ih]
  | @letter c y hstart hrest ih =>
      obtain ⟨hescape, hhole⟩ := hstart name (List.mem_singleton_self name)
      -- Setting escapes aside makes no new placeholder, since none holds the mark.
      have hhole' : ¬ placeholder name <+: c :: Text.replace (escaped name) (aside name) y := by
        rw [← Text.replace_cons hescape]
        exact fun hpre => hhole (Text.prefix_of_prefix_replace hmark hpre)
      rw [Text.replace_cons hescape, Text.occurrences_cons hhole', placesFrom_letter hstart, ih]

end

/-! ### Counting in filled templates -/

variable {template name : String}

/-- **What stands in a filled template**: a character that is in no placeholder stands there as
often as in the template, and in every place as often as in the value. -/
theorem count_fill (hname : IsName name.toList) {d : Char} (hd : IsOutside name.toList d)
    (template value : String) :
    (fill template name value).toList.count d =
      template.toList.count d + places template name * value.toList.count d := by
  have haside : (aside name.toList).count d = 0 := List.count_eq_zero.mpr hd.notMem_aside
  have hhole : (placeholder name.toList).count d = 0 :=
    List.count_eq_zero.mpr hd.notMem_placeholder
  rw [fill, String.toList_ofList, fillChars, Text.count_replace aside_ne_nil hd.notMem_aside,
    Text.count_replace placeholder_ne_nil hd.notMem_placeholder,
    Text.count_replace escaped_ne_nil hd.notMem_escaped, haside, hhole, occurrences_aside hname,
    Nat.mul_zero, Nat.mul_zero, Nat.add_zero, Nat.add_zero, places]

/-- **A template has a place when there is one to count.** -/
theorem hasPlace_iff (hname : IsName name.toList) :
    hasPlace template name = true ↔ 0 < places template name := by
  rw [hasPlace, Text.occursIn_eq_true_iff placeholder_ne_nil, occurrences_aside hname, places]

/-- A pass for another name leaves the places as they are. -/
theorem placesFrom_fillAll {f : Filling} {name : List Char} (hf : IsName f.name)
    (hname : IsName name) (hne : f.name ≠ name) (hvalue : IsInert name f.value)
    (t : List Char) : placesFrom name 0 (fillAll [f] t) = placesFrom name 0 t := by
  have hone : AreSeparate [f] := .singleton hf
  have hmem : f ∈ [f] := List.mem_singleton_self f
  let g : Filling := ⟨name, []⟩
  induction pieces [f.name, g.name] t with
  | nil => rfl
  | @escape found y hin hrest ih =>
      rcases List.mem_pair.mp hin with rfl | rfl
      · rw [hone.fillAll_escaped_append hmem, placesFrom_other_placeholder hname hf hne,
          placesFrom_other_escaped hname hf hne, ih]
      · rw [fillAll_other_escaped hf hname hne, placesFrom_escaped_append,
          placesFrom_escaped_append, ih]
  | @hole found y hin hrest ih =>
      rcases List.mem_pair.mp hin with rfl | rfl
      · rw [hone.fillAll_placeholder_append hmem,
          placesFrom_append_of_notMem name hvalue.open_notMem,
          placesFrom_other_placeholder hname hf hne, ih]
      · rw [fillAll_other_placeholder hf hname hne, placesFrom_placeholder_append hname,
          placesFrom_placeholder_append hname, ih]
  | @letter c y hstart hrest ih =>
      have hfstart : IsLetterStart [f.name] (c :: y) := hstart.mono (by simp)
      have hgstart : IsLetterStart [g.name] (c :: y) := hstart.mono (by simp)
      rw [fillAll_letter [f] hfstart,
        placesFrom_letter (isLetterStart_fillAll (g := g) hf hname hne hvalue hstart),
        placesFrom_letter hgstart, ih]

/-- **Filling another placeholder leaves the places as they are**: with a value of which no
placeholder can be made, it neither takes one away nor adds one. -/
theorem places_fill {other value : String} (ht : '\x01' ∉ template.toList)
    (hname : IsName name.toList) (hother : IsName other.toList) (hne : other ≠ name)
    (hvalue : IsInert name.toList value.toList) (hmark : '\x01' ∉ value.toList) :
    places (fill template other value) name = places template name := by
  have hne' : other.toList ≠ name.toList := fun heq => hne (String.toList_inj.mp heq)
  rw [places, places, fill, String.toList_ofList, fillChars_eq_fillAll hother hmark ht]
  exact placesFrom_fillAll (f := ⟨other.toList, value.toList⟩) hother hname hne' hvalue _

end RealmDirectory.Template
