import RealmDirectory.Text.Piece

/-!
# Splitting texts that were put together

A text that was put together from fields with a separator between them is split into these
fields again, as long as no field holds the separator. And a text that is split was put together
from its fields: there is one more of them than there are separators, and none holds any. The same
goes for a text that is cut once.

## Main results

* `takeWhile_dropWhile_append`, `eq_of_dropWhile_eq_cons`: the characters up to the first one
  without a property.
* `cut_append_cons`, `cut_of_notMem`: the text before and the text behind the first separator.
* `splitOn_append_cons`: the field in front of the first separator.
* `splitOn_of_notMem`: a text without a separator is one field.
* `splitOn_intercalate`: joined fields are split again.
* `splitOn_eq_cons_iff`, `splitOn_eq_singleton_iff`: what a text is split into.
* `length_splitOn`: the number of fields.
-/

namespace RealmDirectory.Text

/-! ### Cutting once -/

/-- Characters with a property are passed over up to one without it. -/
theorem takeWhile_dropWhile_append {p : Char → Bool} {x : List Char} (hx : ∀ c ∈ x, p c = true)
    {d : Char} (hd : p d = false) (y : List Char) :
    (x ++ d :: y).takeWhile p = x ∧ (x ++ d :: y).dropWhile p = d :: y := by
  rw [List.takeWhile_append_of_pos hx, List.dropWhile_append_of_pos hx]
  simp [hd]

/-- The characters in front of the first one without a property have it. -/
theorem eq_of_dropWhile_eq_cons {p : Char → Bool} {s rest : List Char} {c : Char}
    (h : s.dropWhile p = c :: rest) :
    p c = false ∧ s = s.takeWhile p ++ c :: rest ∧ ∀ d ∈ s.takeWhile p, p d = true := by
  have hfirst := List.head?_dropWhile_not p s
  rw [h] at hfirst
  refine ⟨hfirst, ?_, fun d hd => List.all_eq_true.mp (List.all_takeWhile) d hd⟩
  rw [← h, List.takeWhile_append_dropWhile]

variable {separator : Char}

/-- The text before the first separator is cut off, whatever follows. -/
theorem cut_append_cons {x : List Char} (hx : separator ∉ x) (y : List Char) :
    cut separator (x ++ separator :: y) = some (x, y) := by
  induction x with
  | nil => rw [List.nil_append, cut, if_pos rfl]
  | cons c x ih =>
      have hc : c ≠ separator := fun h => hx (h ▸ List.mem_cons_self)
      rw [List.cons_append, cut, if_neg hc, ih fun h => hx (List.mem_cons_of_mem c h)]
      rfl

/-- Nothing is cut off a text without a separator. -/
theorem cut_of_notMem {x : List Char} (hx : separator ∉ x) : cut separator x = none := by
  induction x with
  | nil => rfl
  | cons c x ih =>
      have hc : c ≠ separator := fun h => hx (h ▸ List.mem_cons_self)
      rw [cut, if_neg hc, ih fun h => hx (List.mem_cons_of_mem c h)]
      rfl

/-! ### Splitting at every separator -/

/-- A character that is no separator belongs to the first field. -/
theorem splitOn_cons_of_ne {c : Char} (hc : c ≠ separator) {r field : List Char}
    {fields : List (List Char)} (hr : splitOn separator r = field :: fields) :
    splitOn separator (c :: r) = (c :: field) :: fields := by
  rw [splitOn, if_neg hc, hr]

/-- **The field in front of the first separator** is split off, whatever follows. -/
theorem splitOn_append_cons {x : List Char} (hx : separator ∉ x) (y : List Char) :
    splitOn separator (x ++ separator :: y) = x :: splitOn separator y := by
  induction x with
  | nil => rw [List.nil_append, splitOn, if_pos rfl]
  | cons c x ih =>
      have hc : c ≠ separator := fun h => hx (h ▸ List.mem_cons_self)
      exact splitOn_cons_of_ne hc (ih fun h => hx (List.mem_cons_of_mem c h))

/-- **A text without a separator is one field.** -/
theorem splitOn_of_notMem {x : List Char} (hx : separator ∉ x) :
    splitOn separator x = [x] := by
  induction x with
  | nil => rfl
  | cons c x ih =>
      have hc : c ≠ separator := fun h => hx (h ▸ List.mem_cons_self)
      exact splitOn_cons_of_ne hc (ih fun h => hx (List.mem_cons_of_mem c h))

/-- **Joined fields are split again**, as long as there is one. -/
theorem splitOn_intercalate {l : List (List Char)} (hne : l ≠ []) (h : ∀ s ∈ l, separator ∉ s) :
    splitOn separator ([separator].intercalate l) = l := by
  induction l with
  | nil => exact absurd rfl hne
  | cons s l ih =>
      have hs := h s List.mem_cons_self
      cases l with
      | nil => rw [List.intercalate_singleton, splitOn_of_notMem hs]
      | cons t l =>
          rw [List.intercalate_cons_cons, List.append_assoc, List.singleton_append,
            splitOn_append_cons hs,
            ih (List.cons_ne_nil t l) fun u hu => h u (List.mem_cons_of_mem s hu)]

/-- What stands in joined fields. -/
theorem mem_intercalate {l : List (List Char)} {c : Char}
    (hc : c ∈ [separator].intercalate l) : c = separator ∨ ∃ s ∈ l, c ∈ s := by
  induction l with
  | nil => cases hc
  | cons s l ih =>
      cases l with
      | nil => exact .inr ⟨s, List.mem_cons_self, by simpa using hc⟩
      | cons t l =>
          rw [List.intercalate_cons_cons, List.append_assoc, List.mem_append,
            List.singleton_append, List.mem_cons] at hc
          rcases hc with hs | rfl | hc
          · exact .inr ⟨s, List.mem_cons_self, hs⟩
          · exact .inl rfl
          · exact (ih hc).imp_right fun ⟨u, hu, hmem⟩ => ⟨u, List.mem_cons_of_mem s hu, hmem⟩

/-- **The number of fields** is one more than the number of separators. -/
theorem length_splitOn (separator : Char) (s : List Char) :
    (splitOn separator s).length = s.count separator + 1 := by
  induction s with
  | nil => rfl
  | cons c r ih =>
      by_cases hc : c = separator
      · rw [splitOn, if_pos hc, hc, List.count_cons_self, List.length_cons, ih]
      · obtain ⟨field, fields, hr⟩ : ∃ field fields, splitOn separator r = field :: fields :=
          List.exists_cons_of_ne_nil (List.length_pos_iff.mp (ih ▸ Nat.succ_pos _))
        rw [splitOn_cons_of_ne hc hr, List.count_cons_of_ne hc, ← ih, hr]
        rfl

theorem splitOn_ne_nil (separator : Char) (s : List Char) : splitOn separator s ≠ [] :=
  List.length_pos_iff.mp (length_splitOn separator s ▸ Nat.succ_pos _)

/-- The first field holds no separator, and is the whole text when it is the only one. -/
theorem eq_append_of_splitOn {s field : List Char} {fields : List (List Char)}
    (h : splitOn separator s = field :: fields) :
    separator ∉ field ∧ ((fields = [] ∧ s = field) ∨
      ∃ rest, s = field ++ separator :: rest ∧ splitOn separator rest = fields) := by
  induction s generalizing field with
  | nil =>
      obtain ⟨rfl, rfl⟩ := List.cons.inj h
      exact ⟨List.not_mem_nil, .inl ⟨rfl, rfl⟩⟩
  | cons c r ih =>
      by_cases hc : c = separator
      · rw [splitOn, if_pos hc] at h
        obtain ⟨rfl, rfl⟩ := List.cons.inj h
        exact ⟨List.not_mem_nil, .inr ⟨r, by rw [hc, List.nil_append], rfl⟩⟩
      · obtain ⟨first, others, hr⟩ := List.exists_cons_of_ne_nil (splitOn_ne_nil separator r)
        rw [splitOn_cons_of_ne hc hr] at h
        obtain ⟨rfl, rfl⟩ := List.cons.inj h
        obtain ⟨hfirst, hrest⟩ := ih hr
        refine ⟨fun hmem => (List.mem_cons.mp hmem).elim (fun heq => hc heq.symm) hfirst, ?_⟩
        refine hrest.imp (fun ⟨hnil, heq⟩ => ⟨hnil, by rw [heq]⟩) ?_
        rintro ⟨rest, heq, hothers⟩
        exact ⟨rest, by rw [heq, List.cons_append], hothers⟩

/-- No field holds the separator, and every character of a field stands in the text. -/
theorem mem_of_mem_splitOn {s field : List Char} (h : field ∈ splitOn separator s) :
    separator ∉ field ∧ ∀ c ∈ field, c ∈ s := by
  induction hn : (splitOn separator s).length generalizing s with
  | zero => exact absurd (List.length_eq_zero_iff.mp hn) (splitOn_ne_nil separator s)
  | succ n ih =>
      obtain ⟨first, others, hs⟩ := List.exists_cons_of_ne_nil (splitOn_ne_nil separator s)
      rw [hs] at h hn
      obtain ⟨hfirst, ⟨rfl, rfl⟩ | ⟨rest, rfl, hrest⟩⟩ := eq_append_of_splitOn hs
      · obtain rfl := List.mem_singleton.mp h
        exact ⟨hfirst, fun c hc => hc⟩
      · rcases List.mem_cons.mp h with rfl | hothers
        · exact ⟨hfirst, fun c hc => List.mem_append_left _ hc⟩
        · obtain ⟨hfield, hmem⟩ := ih (hrest ▸ hothers) (by rw [hrest]; simpa using hn)
          exact ⟨hfield, fun c hc =>
            List.mem_append_right first (List.mem_cons_of_mem separator (hmem c hc))⟩

/-- **A text with one field** has no separator, and is the field. -/
theorem splitOn_eq_singleton_iff {s field : List Char} :
    splitOn separator s = [field] ↔ s = field ∧ separator ∉ field := by
  constructor
  · intro h
    obtain ⟨hfield, ⟨-, heq⟩ | ⟨rest, -, hrest⟩⟩ := eq_append_of_splitOn h
    · exact ⟨heq, hfield⟩
    · exact absurd hrest (splitOn_ne_nil separator rest)
  · rintro ⟨rfl, hfield⟩
    exact splitOn_of_notMem hfield

/-- **A text with several fields** is the first one, and behind a separator the text with the
other ones. -/
theorem splitOn_eq_cons_iff {s field : List Char} {fields : List (List Char)}
    (hne : fields ≠ []) :
    splitOn separator s = field :: fields ↔
      separator ∉ field ∧ ∃ rest, s = field ++ separator :: rest ∧
        splitOn separator rest = fields := by
  constructor
  · intro h
    obtain ⟨hfield, ⟨hnil, -⟩ | hrest⟩ := eq_append_of_splitOn h
    · exact absurd hnil hne
    · exact ⟨hfield, hrest⟩
  · rintro ⟨hfield, rest, rfl, hrest⟩
    rw [splitOn_append_cons hfield, hrest]

end RealmDirectory.Text
