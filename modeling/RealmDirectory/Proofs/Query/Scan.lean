import RealmDirectory.Proofs.Query.OnePass

/-!
# Filling as a scan

A template that is read from left to right falls into parts: where an escape is written it is a
part, else where a placeholder is, and anywhere else one character is. The parts are found without
a look at the value, so whatever the value holds is put in as it is. The three rewritings of filling
come to the same.

## Main definitions

* `Part`, `Part.text`, `Part.filled`: the parts of a template, and what becomes of them.
* `Parts`: the parts that the scan finds.

## Main results

* `Parts.exists_parts`, `Parts.unique`: every template is scanned in one way.
* `Parts.fillChars_eq`: filling a template is filling its parts.
* `fill_eq_scan`: filling, the one pass and the parts compared.
-/

namespace RealmDirectory.Template

/-- A part of a template: an escape, a placeholder, or a character that stands for itself. -/
inductive Part where
  | escape
  | hole
  | letter (c : Char)
  deriving DecidableEq, Repr

namespace Part

/-- The characters of a part. -/
def text (name : List Char) : Part → List Char
  | escape => escaped name
  | hole => placeholder name
  | letter c => [c]

/-- What becomes of a part: the placeholder's text, the value, or the character itself. -/
def filled (name value : List Char) : Part → List Char
  | escape => placeholder name
  | hole => value
  | letter c => [c]

end Part

/-- **One scan from left to right**: an escape where one is written, else a placeholder, else one
character. -/
inductive Parts (name : List Char) : List Char → List Part → Prop
  | nil : Parts name [] []
  | escape {y : List Char} {l : List Part} (h : Parts name y l) :
      Parts name (escaped name ++ y) (.escape :: l)
  | hole {y : List Char} {l : List Part} (hescape : ¬ escaped name <+: placeholder name ++ y)
      (h : Parts name y l) : Parts name (placeholder name ++ y) (.hole :: l)
  | letter {c : Char} {y : List Char} {l : List Part} (hescape : ¬ escaped name <+: c :: y)
      (hhole : ¬ placeholder name <+: c :: y) (h : Parts name y l) :
      Parts name (c :: y) (.letter c :: l)

namespace Parts

variable {name t value : List Char} {l l' : List Part}

/-- Nothing is lost: the parts are the template. -/
theorem flatMap_text (h : Parts name t l) : l.flatMap (Part.text name) = t := by
  induction h with
  | nil => rfl
  | escape _ ih => rw [List.flatMap_cons, ih, Part.text]
  | hole _ _ ih => rw [List.flatMap_cons, ih, Part.text]
  | letter _ _ _ ih => rw [List.flatMap_cons, ih, Part.text, List.singleton_append]

/-- Every template has parts. -/
theorem exists_parts (hname : IsName name) (t : List Char) : ∃ l, Parts name t l := by
  induction pieces [name] t with
  | nil => exact ⟨[], .nil⟩
  | @escape _ y hin hrest ih =>
      obtain rfl := List.mem_singleton.mp hin
      obtain ⟨l, hl⟩ := ih
      exact ⟨_, .escape hl⟩
  | @hole _ y hin hrest ih =>
      obtain rfl := List.mem_singleton.mp hin
      obtain ⟨l, hl⟩ := ih
      exact ⟨_, .hole (not_escaped_prefix_placeholder hname y) hl⟩
  | @letter c y hstart hrest ih =>
      obtain ⟨hescape, hhole⟩ := hstart name (List.mem_singleton_self name)
      obtain ⟨l, hl⟩ := ih
      exact ⟨_, .letter hescape hhole hl⟩

/-- A template has its parts in one way. -/
theorem unique (h : Parts name t l) (h' : Parts name t l') : l' = l := by
  induction h generalizing l' with
  | nil =>
      generalize hs : ([] : List Char) = s at h'
      cases h' with
      | nil => rfl
      | escape => exact absurd hs.symm (List.append_ne_nil_of_left_ne_nil escaped_ne_nil _)
      | hole => exact absurd hs.symm (List.append_ne_nil_of_left_ne_nil placeholder_ne_nil _)
      | letter => cases hs
  | @escape y l h ih =>
      generalize hs : escaped name ++ y = s at h'
      cases h' with
      | nil => exact absurd hs (List.append_ne_nil_of_left_ne_nil escaped_ne_nil _)
      | escape h' =>
          obtain rfl := List.append_cancel_left hs
          rw [ih h']
      | hole hescape => exact absurd ⟨y, hs⟩ hescape
      | letter hescape => exact absurd ⟨y, hs⟩ hescape
  | @hole y l hescape h ih =>
      generalize hs : placeholder name ++ y = s at h' hescape
      cases h' with
      | nil => exact absurd hs (List.append_ne_nil_of_left_ne_nil placeholder_ne_nil _)
      | escape h' => exact absurd ⟨_, rfl⟩ hescape
      | hole _ h' =>
          obtain rfl := List.append_cancel_left hs
          rw [ih h']
      | letter _ hhole => exact absurd ⟨y, hs⟩ hhole
  | @letter c y l hescape hhole h ih =>
      generalize hs : c :: y = s at h' hescape hhole
      cases h' with
      | nil => cases hs
      | escape h' => exact absurd ⟨_, rfl⟩ hescape
      | hole _ h' => exact absurd ⟨_, rfl⟩ hhole
      | letter _ _ h' =>
          obtain ⟨rfl, rfl⟩ := List.cons.inj hs
          rw [ih h']

/-- **Filling a template is filling its parts**, when neither the template nor the value holds the
mark under which escapes are set aside. The induction is on the parts. -/
theorem fillChars_eq (h : Parts name t l) (hname : IsName name) (ht : '\x01' ∉ t)
    (hvalue : '\x01' ∉ value) : fillChars t name value = l.flatMap (Part.filled name value) := by
  induction h with
  | nil => rfl
  | @escape y l h ih =>
      rw [fillChars_escaped_append hname, ih fun hmark => ht (List.mem_append_right _ hmark),
        List.flatMap_cons, Part.filled]
  | @hole y l hescape h ih =>
      rw [fillChars_hole_append hname hvalue, ih fun hmark => ht (List.mem_append_right _ hmark),
        List.flatMap_cons, Part.filled]
  | @letter c y l hescape hhole h ih =>
      have hc : c ≠ '\x01' := fun heq => ht (heq ▸ List.mem_cons_self)
      have hstart : IsLetterStart [name] (c :: y) := fun other hother =>
        List.mem_singleton.mp hother ▸ ⟨hescape, hhole⟩
      rw [fillChars_letter hname value hc hstart,
        ih fun hmark => ht (List.mem_cons_of_mem c hmark), List.flatMap_cons, Part.filled,
        List.singleton_append]

end Parts

/-- **Filling a template is one scan from left to right.** The scan finds the parts of the template
in one way, without a look at the value, and loses nothing of it. What comes out for a value is one
pass that puts the placeholder's text in the place of an escape, else the value in the place of a
placeholder, and else copies a character; so the value stands there as it is, whatever braces,
placeholders and escapes it holds. -/
theorem fill_eq_scan {template name : String} (hname : IsName name.toList)
    (ht : '\x01' ∉ template.toList) :
    ∃ parts,
      (∀ l, Parts name.toList template.toList l ↔ l = parts) ∧
      parts.flatMap (Part.text name.toList) = template.toList ∧
      ∀ value : String, '\x01' ∉ value.toList →
        (fill template name value).toList =
            parts.flatMap (Part.filled name.toList value.toList) ∧
          (fill template name value).toList =
            fillAll [⟨name.toList, value.toList⟩] template.toList := by
  obtain ⟨parts, h⟩ := Parts.exists_parts hname template.toList
  refine ⟨parts, fun l => ⟨h.unique, fun heq => heq ▸ h⟩, h.flatMap_text, fun value hvalue => ?_⟩
  rw [fill, String.toList_ofList]
  exact ⟨h.fillChars_eq hname ht hvalue, fillChars_eq_fillAll hname hvalue ht⟩

/-- Escapes beside each other and inside braces, and a value that holds the placeholder and its
escape: the value comes out as it is. -/
theorem fill_eq_scan_braces :
    let template := "\x7b\x7b\x7bcolumns\x7d\x7dcolumns\x7d \x7b\x7bcolumns\x7d\x7d" ++
      "\x7b\x7bcolumns\x7d\x7d, \x7b\x7bcolumns\x7d"
    let value := "\x7bcolumns\x7d\x7b\x7bcolumns\x7d\x7d"
    IsName columns.toList ∧ '\x01' ∉ template.toList ∧ '\x01' ∉ value.toList ∧
      fill template columns value =
        "\x7b\x7bcolumns\x7dcolumns\x7d \x7bcolumns\x7d" ++
          "\x7bcolumns\x7d, \x7b\x7bcolumns\x7d\x7b\x7bcolumns\x7d\x7d" := by
  intro template value
  have hname : IsName columns.toList := by decide
  have ht : '\x01' ∉ template.toList := by decide
  have hvalue : '\x01' ∉ value.toList := by decide
  obtain ⟨_, -, -, hfill⟩ := fill_eq_scan hname ht
  refine ⟨hname, ht, hvalue, String.toList_inj.mp ((hfill value hvalue).2.trans ?_)⟩
  decide

end RealmDirectory.Template
