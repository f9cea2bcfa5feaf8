import Mathlib.Data.List.Basic
import RealmDirectory.Proofs.Query.Placeholder

/-!
# Filling templates in one pass

Filling a placeholder rewrites a template three times: escapes are set aside, placeholders
are filled, and the escapes come back. This module shows that the three rewritings come to
one reading from left to right, in which every escape becomes a placeholder's text, every
placeholder becomes its value, and every other character is copied. What was put in is not
read again. Two placeholders that are filled one after the other are filled in one pass, too.

A template is read as a row of pieces: escapes, placeholders and single letters, where a
letter is a character at which neither an escape nor a placeholder begins. Every statement
below follows these pieces.

## Main definitions

* `Filling`, `fillAll`: values for placeholders, and the one pass that puts them in.
* `Pieces`: a template as a row of pieces.

## Main results

* `fillChars_eq_fillAll`: the three rewritings for one placeholder are one pass.
* `fillAll_fillAll`, `fill_fill`: two passes for two placeholders are one.
* `AreSeparate.fillAll_congr`: the order in which values are given does not matter.
-/

namespace RealmDirectory.Template

/-! ### One pass -/

/-- A placeholder's name, and the text that takes its place. -/
structure Filling where
  name : List Char
  value : List Char

/-- What a filling puts in the place of the start of a template, with the length of that
start: the placeholder's text for its escape, and the value for the placeholder. -/
def Filling.atStart (f : Filling) (t : List Char) : Option (List Char × Nat) :=
  if (escaped f.name).isPrefixOf t then some (placeholder f.name, (escaped f.name).length)
  else if (placeholder f.name).isPrefixOf t then some (f.value, (placeholder f.name).length)
  else none

/-- One pass over a template, after passing over `skip` characters that belong to an escape
or a placeholder found before. -/
def fillAllFrom (fs : List Filling) : Nat → List Char → List Char
  | _, [] => []
  | skip + 1, _ :: r => fillAllFrom fs skip r
  | 0, c :: r =>
      match fs.findSome? fun f => f.atStart (c :: r) with
      | some (text, length) => text ++ fillAllFrom fs (length - 1) r
      | none => c :: fillAllFrom fs 0 r

/-- Puts some values in the places of their placeholders, and turns the escapes of these
placeholders into their texts, from left to right in one pass. -/
def fillAll (fs : List Filling) (template : List Char) : List Char := fillAllFrom fs 0 template

/-! ### Which piece a text begins with -/

section

variable {name other : List Char}

/-- Names that end at a brace are equal when one text begins like the other. -/
theorem eq_of_append_close_isPrefix (hname : '}' ∉ name) (hother : '}' ∉ other)
    {x y : List Char} (h : name ++ '}' :: x <+: other ++ '}' :: y) : name = other := by
  induction name generalizing other with
  | nil =>
      cases other with
      | nil => rfl
      | cons d other =>
          have heq : '}' = d := (List.cons_prefix_cons.mp h).1
          exact absurd (heq ▸ List.mem_cons_self) hother
  | cons c name ih =>
      cases other with
      | nil =>
          have heq : c = '}' := (List.cons_prefix_cons.mp h).1
          exact absurd (heq ▸ List.mem_cons_self) hname
      | cons d other =>
          obtain ⟨rfl, hrest⟩ := List.cons_prefix_cons.mp h
          rw [ih (fun hmem => hname (List.mem_cons_of_mem c hmem))
            (fun hmem => hother (List.mem_cons_of_mem c hmem)) hrest]

/-- No name begins with an opening brace, so nothing but a second brace does. -/
theorem not_open_isPrefix (hname : IsName name) {x y : List Char} :
    ¬ '{' :: x <+: name ++ '}' :: y := by
  intro h
  cases name with
  | nil => exact absurd (List.cons_prefix_cons.mp h).1 (by decide)
  | cons c name =>
      have heq : '{' = c := (List.cons_prefix_cons.mp h).1
      exact hname.open_notMem (heq ▸ List.mem_cons_self)

theorem placeholder_append (name y : List Char) :
    placeholder name ++ y = '{' :: (name ++ '}' :: y) := by
  simp [placeholder]

theorem escaped_append (name y : List Char) :
    escaped name ++ y = '{' :: '{' :: (name ++ '}' :: '}' :: y) := by
  simp [escaped]

theorem not_escaped_prefix_placeholder (hother : IsName other) (y : List Char) :
    ¬ escaped name <+: placeholder other ++ y := by
  intro h
  rw [placeholder_append, escaped] at h
  exact not_open_isPrefix hother (List.cons_prefix_cons.mp h).2

theorem eq_of_placeholder_isPrefix (hname : IsName name) (hother : IsName other)
    {y : List Char} (h : placeholder name <+: placeholder other ++ y) : name = other := by
  rw [placeholder_append, placeholder] at h
  exact eq_of_append_close_isPrefix hname.close_notMem hother.close_notMem
    (List.cons_prefix_cons.mp h).2

theorem eq_of_escaped_isPrefix (hname : IsName name) (hother : IsName other)
    {y : List Char} (h : escaped name <+: escaped other ++ y) : name = other := by
  rw [escaped_append, escaped] at h
  exact eq_of_append_close_isPrefix hname.close_notMem hother.close_notMem
    (List.cons_prefix_cons.mp (List.cons_prefix_cons.mp h).2).2

theorem not_placeholder_prefix_escaped (hname : IsName name) (y : List Char) :
    ¬ placeholder name <+: escaped other ++ y := by
  intro h
  rw [escaped_append, placeholder] at h
  obtain ⟨z, hz⟩ := (List.cons_prefix_cons.mp h).2
  rw [List.append_assoc] at hz
  exact not_open_isPrefix hname ⟨_, hz.symm⟩

end

/-! ### Templates as rows of pieces -/

/-- Neither an escape nor a placeholder of one of some names begins a text. -/
def IsLetterStart (names : List (List Char)) (t : List Char) : Prop :=
  ∀ name ∈ names, ¬ escaped name <+: t ∧ ¬ placeholder name <+: t

/-- A letter beside some names is one beside some of them. -/
theorem IsLetterStart.mono {names others : List (List Char)} {t : List Char}
    (h : IsLetterStart names t) (hsub : others ⊆ names) : IsLetterStart others t :=
  fun name hname => h name (hsub hname)

/-- A template as a row of escapes and placeholders of some names, and of letters. -/
inductive Pieces (names : List (List Char)) : List Char → Prop
  | nil : Pieces names []
  /-- An escape. -/
  | escape {name y : List Char} (hname : name ∈ names) (hrest : Pieces names y) :
      Pieces names (escaped name ++ y)
  /-- A placeholder. -/
  | hole {name y : List Char} (hname : name ∈ names) (hrest : Pieces names y) :
      Pieces names (placeholder name ++ y)
  /-- A character at which no escape and no placeholder begins. -/
  | letter {c : Char} {y : List Char} (hstart : IsLetterStart names (c :: y))
      (hrest : Pieces names y) : Pieces names (c :: y)

/-- **Every template is a row of pieces.** -/
theorem pieces (names : List (List Char)) (t : List Char) : Pieces names t := by
  induction hlength : t.length using Nat.strongRecOn generalizing t with
  | ind n ih =>
      cases t with
      | nil => exact .nil
      | cons c r =>
          by_cases hletter : IsLetterStart names (c :: r)
          · exact .letter hletter (ih r.length (by simp [← hlength]) r rfl)
          · simp only [IsLetterStart, not_forall, not_and_or, not_not] at hletter
            obtain ⟨name, hname, ⟨y, hy⟩ | ⟨y, hy⟩⟩ := hletter
            · have hless : y.length < n := by
                rw [← hlength, ← hy, escaped_append]
                simp only [List.length_cons, List.length_append]
                omega
              exact hy ▸ .escape hname (ih y.length hless y rfl)
            · have hless : y.length < n := by
                rw [← hlength, ← hy, placeholder_append]
                simp only [List.length_cons, List.length_append]
                omega
              exact hy ▸ .hole hname (ih y.length hless y rfl)

/-! ### The pass, piece by piece -/

section

variable {fs : List Filling}

/-- Characters that belong to a piece are passed over. -/
theorem fillAllFrom_append (fs : List Filling) (skipped y : List Char) :
    fillAllFrom fs skipped.length (skipped ++ y) = fillAllFrom fs 0 y := by
  induction skipped with
  | nil => rfl
  | cons c s ih => simpa [fillAllFrom] using ih

/-- A piece is replaced by what is put in its place, and the rest is read behind it. -/
theorem fillAll_piece_append {piece text y : List Char} (hpiece : piece ≠ [])
    (h : (fs.findSome? fun f => f.atStart (piece ++ y)) = some (text, piece.length)) :
    fillAll fs (piece ++ y) = text ++ fillAll fs y := by
  obtain ⟨c, s, rfl⟩ := List.exists_cons_of_ne_nil hpiece
  have hskip := fillAllFrom_append fs s y
  rw [List.cons_append] at h ⊢
  simp only [fillAll, fillAllFrom, h, List.length_cons, Nat.add_sub_cancel, hskip]

/-- A letter is copied. -/
theorem fillAll_letter (fs : List Filling) {c : Char} {y : List Char}
    (h : IsLetterStart (fs.map Filling.name) (c :: y)) :
    fillAll fs (c :: y) = c :: fillAll fs y := by
  have hnone : (fs.findSome? fun f => f.atStart (c :: y)) = none := by
    rw [List.findSome?_eq_none_iff]
    intro f hf
    have hno := h f.name (List.mem_map_of_mem hf)
    simp only [Filling.atStart, List.isPrefixOf_iff_prefix, hno.1, hno.2, if_false]
  simp only [fillAll, fillAllFrom, hnone]

/-- Text without an opening brace is copied. -/
theorem fillAll_append_of_notMem (fs : List Filling) {x : List Char} (hx : '{' ∉ x)
    (y : List Char) : fillAll fs (x ++ y) = x ++ fillAll fs y := by
  induction x with
  | nil => rfl
  | cons c x ih =>
      have hstart : IsLetterStart (fs.map Filling.name) (c :: (x ++ y)) := by
        intro name _
        have hc {z : List Char} : ¬ '{' :: z <+: c :: (x ++ y) := fun hpre =>
          hx ((List.cons_prefix_cons.mp hpre).1 ▸ List.mem_cons_self)
        exact ⟨hc, hc⟩
      rw [List.cons_append, fillAll_letter fs hstart,
        ih fun hmem => hx (List.mem_cons_of_mem c hmem), List.cons_append]

end

/-- Fillings with proper names, one for each name. -/
structure AreSeparate (fs : List Filling) : Prop where
  isName : ∀ f ∈ fs, IsName f.name
  injective : ∀ f ∈ fs, ∀ g ∈ fs, f.name = g.name → f = g

namespace AreSeparate

variable {fs gs : List Filling} {f g : Filling}

theorem singleton (hf : IsName f.name) : AreSeparate [f] where
  isName := by simp [hf]
  injective := by simp

/-- Some of several separate fillings are separate. -/
theorem mono (h : AreSeparate gs) (hsub : ∀ f ∈ fs, f ∈ gs) : AreSeparate fs where
  isName f hf := h.isName f (hsub f hf)
  injective f hf g hg := h.injective f (hsub f hf) g (hsub g hg)

theorem pair (hf : IsName f.name) (hg : IsName g.name) (hne : f.name ≠ g.name) :
    AreSeparate [f, g] where
  isName := by simp [hf, hg]
  injective := by simp [hne, hne.symm]

/-- Only the filling of a piece has something to put in its place. -/
theorem findSome?_eq {t : List Char} {found : List Char × Nat} (hf : f ∈ fs)
    (hfound : f.atStart t = some found)
    (hother : ∀ g ∈ fs, g ≠ f → ¬ escaped g.name <+: t ∧ ¬ placeholder g.name <+: t) :
    (fs.findSome? fun f => f.atStart t) = some found := by
  cases h : fs.findSome? fun f => f.atStart t with
  | none =>
      rw [List.findSome?_eq_none_iff.mp h f hf] at hfound
      cases hfound
  | some other =>
      obtain ⟨g, hg, hgt⟩ := List.exists_of_findSome?_eq_some h
      by_cases heq : g = f
      · rw [← hgt, heq, hfound]
      · obtain ⟨hescape, hhole⟩ := hother g hg heq
        simp only [Filling.atStart, List.isPrefixOf_iff_prefix, hescape, hhole, if_false] at hgt
        cases hgt

/-- **An escape becomes the text of its placeholder.** -/
theorem fillAll_escaped_append (h : AreSeparate fs) (hf : f ∈ fs) (y : List Char) :
    fillAll fs (escaped f.name ++ y) = placeholder f.name ++ fillAll fs y := by
  have hstart : f.atStart (escaped f.name ++ y) =
      some (placeholder f.name, (escaped f.name).length) :=
    if_pos (List.isPrefixOf_iff_prefix.mpr ⟨y, rfl⟩)
  refine fillAll_piece_append escaped_ne_nil (findSome?_eq hf hstart fun g hg hne => ⟨?_, ?_⟩)
  · intro hpre
    exact hne (h.injective g hg f hf (eq_of_escaped_isPrefix (h.isName g hg) (h.isName f hf) hpre))
  · exact not_placeholder_prefix_escaped (h.isName g hg) y

/-- **A placeholder becomes its value.** -/
theorem fillAll_placeholder_append (h : AreSeparate fs) (hf : f ∈ fs) (y : List Char) :
    fillAll fs (placeholder f.name ++ y) = f.value ++ fillAll fs y := by
  have hno : ¬ (escaped f.name).isPrefixOf (placeholder f.name ++ y) = true := fun hpre =>
    not_escaped_prefix_placeholder (h.isName f hf) y (List.isPrefixOf_iff_prefix.mp hpre)
  have hstart : f.atStart (placeholder f.name ++ y) =
      some (f.value, (placeholder f.name).length) := by
    rw [Filling.atStart, if_neg hno, if_pos (List.isPrefixOf_iff_prefix.mpr ⟨y, rfl⟩)]
  refine fillAll_piece_append placeholder_ne_nil
    (findSome?_eq hf hstart fun g hg hne => ⟨?_, ?_⟩)
  · exact not_escaped_prefix_placeholder (h.isName f hf) y
  · intro hpre
    exact hne
      (h.injective g hg f hf (eq_of_placeholder_isPrefix (h.isName g hg) (h.isName f hf) hpre))

/-- A placeholder of a name without a value is copied. -/
theorem fillAll_placeholder_append_of_ne (h : AreSeparate fs) {name : List Char}
    (hname : IsName name) (hne : ∀ f ∈ fs, f.name ≠ name) (y : List Char) :
    fillAll fs (placeholder name ++ y) = placeholder name ++ fillAll fs y := by
  have hstart : IsLetterStart (fs.map Filling.name) (placeholder name ++ y) := by
    intro other hother
    obtain ⟨f, hf, rfl⟩ := List.mem_map.mp hother
    exact ⟨not_escaped_prefix_placeholder hname y,
      fun hpre => hne f hf (eq_of_placeholder_isPrefix (h.isName f hf) hname hpre)⟩
  have hrest : '{' ∉ name ++ ['}'] := by simpa using hname.open_notMem
  have hcopy := fillAll_append_of_notMem fs hrest y
  rw [List.append_assoc, List.append_assoc] at hcopy
  rw [placeholder_append] at hstart ⊢
  rw [fillAll_letter fs hstart, placeholder_append]
  exact congrArg _ hcopy

/-- An escape of a name without a value is copied. -/
theorem fillAll_escaped_append_of_ne (h : AreSeparate fs) {name : List Char}
    (hname : IsName name) (hne : ∀ f ∈ fs, f.name ≠ name) (y : List Char) :
    fillAll fs (escaped name ++ y) = escaped name ++ fillAll fs y := by
  have hstart : IsLetterStart (fs.map Filling.name) (escaped name ++ y) := by
    intro other hother
    obtain ⟨f, hf, rfl⟩ := List.mem_map.mp hother
    exact ⟨fun hpre => hne f hf (eq_of_escaped_isPrefix (h.isName f hf) hname hpre),
      not_placeholder_prefix_escaped (h.isName f hf) y⟩
  have hsplit (z : List Char) : escaped name ++ z = '{' :: (placeholder name ++ (['}'] ++ z)) := by
    simp [escaped, placeholder]
  have hclose : fillAll fs (['}'] ++ y) = ['}'] ++ fillAll fs y :=
    fillAll_append_of_notMem fs (by decide) y
  rw [hsplit] at hstart ⊢
  rw [fillAll_letter fs hstart, h.fillAll_placeholder_append_of_ne hname hne, hclose, hsplit]

/-- The order in which the values are given does not matter. -/
theorem fillAll_congr (hfs : AreSeparate fs) (hgs : AreSeparate gs) (hsame : ∀ f, f ∈ fs ↔ f ∈ gs)
    (t : List Char) : fillAll fs t = fillAll gs t := by
  have hnames {name : List Char} : name ∈ gs.map Filling.name → name ∈ fs.map Filling.name := by
    simp only [List.mem_map, hsame, imp_self]
  induction pieces (fs.map Filling.name) t with
  | nil => rfl
  | escape hname hrest ih =>
      obtain ⟨f, hf, rfl⟩ := List.mem_map.mp hname
      rw [hfs.fillAll_escaped_append hf, hgs.fillAll_escaped_append ((hsame f).mp hf), ih]
  | hole hname hrest ih =>
      obtain ⟨f, hf, rfl⟩ := List.mem_map.mp hname
      rw [hfs.fillAll_placeholder_append hf, hgs.fillAll_placeholder_append ((hsame f).mp hf), ih]
  | letter hstart hrest ih =>
      have hgstart := hstart.mono fun _ => hnames
      rw [fillAll_letter fs hstart, fillAll_letter gs hgstart, ih]

end AreSeparate

/-! ### Three rewritings in one pass -/

section

variable {name value : List Char}

theorem fillChars_escaped_append (hname : IsName name) (value y : List Char) :
    fillChars (escaped name ++ y) name value = placeholder name ++ fillChars y name value := by
  have hopen : '{' ∉ aside name := by simpa [aside] using hname.open_notMem
  have haside (z : List Char) : Text.replace (placeholder name) value (aside name ++ z) =
      aside name ++ Text.replace (placeholder name) value z :=
    Text.replace_append_of_head_notMem hopen z
  simp only [fillChars, Text.replace_piece_append escaped_ne_nil, haside,
    Text.replace_piece_append aside_ne_nil]

theorem fillChars_hole_append (hname : IsName name) (hvalue : '\x01' ∉ value) (y : List Char) :
    fillChars (placeholder name ++ y) name value = value ++ fillChars y name value := by
  have hback (z : List Char) : Text.replace (aside name) (placeholder name) (value ++ z) =
      value ++ Text.replace (aside name) (placeholder name) z :=
    Text.replace_append_of_head_notMem hvalue z
  simp only [fillChars, replace_escaped_placeholder_append hname,
    Text.replace_piece_append placeholder_ne_nil, hback]

theorem fillChars_letter (hname : IsName name) (value : List Char) {c : Char} {y : List Char}
    (hc : c ≠ '\x01') (hstart : IsLetterStart [name] (c :: y)) :
    fillChars (c :: y) name value = c :: fillChars y name value := by
  obtain ⟨hescape, hhole⟩ := hstart name (List.mem_singleton_self name)
  have hmark : '\x01' ∉ placeholder name := by simpa [placeholder] using hname.mark_notMem
  -- Setting escapes aside makes no new placeholder, since none holds the mark.
  have hhole' : ¬ placeholder name <+: c :: Text.replace (escaped name) (aside name) y := by
    rw [← Text.replace_cons hescape]
    exact fun hpre => hhole (Text.prefix_of_prefix_replace hmark hpre)
  have haside (z : List Char) : ¬ aside name <+: c :: z := fun hpre =>
    hc (List.cons_prefix_cons.mp hpre).1.symm
  simp only [fillChars, Text.replace_cons hescape, Text.replace_cons hhole',
    Text.replace_cons (haside _)]

/-- **Filling a placeholder is one pass**, when neither the template nor the value holds the
mark under which escapes are set aside. -/
theorem fillChars_eq_fillAll (hname : IsName name) (hvalue : '\x01' ∉ value) {t : List Char}
    (ht : '\x01' ∉ t) : fillChars t name value = fillAll [⟨name, value⟩] t := by
  let f : Filling := ⟨name, value⟩
  have hone : AreSeparate [f] := .singleton hname
  have hf : f ∈ [f] := List.mem_singleton_self f
  induction pieces [f.name] t with
  | nil => rfl
  | @escape _ y hin hrest ih =>
      obtain rfl := List.mem_singleton.mp hin
      rw [fillChars_escaped_append hname, hone.fillAll_escaped_append hf,
        ih fun hmark => ht (List.mem_append_right _ hmark)]
  | @hole _ y hin hrest ih =>
      obtain rfl := List.mem_singleton.mp hin
      rw [fillChars_hole_append hname hvalue, hone.fillAll_placeholder_append hf,
        ih fun hmark => ht (List.mem_append_right _ hmark)]
  | @letter c y hstart hrest ih =>
      have hc : c ≠ '\x01' := fun heq => ht (heq ▸ List.mem_cons_self)
      rw [fillChars_letter hname value hc hstart, fillAll_letter [f] hstart,
        ih fun hmark => ht (List.mem_cons_of_mem c hmark)]

end

/-! ### Two passes in one -/

section

variable {f g : Filling}

/-- A text that ends in a closing brace and does not reach behind a value without one does
not hold every character of the value. -/
theorem not_append_close_isPrefix {s v z : List Char} {d : Char} (hclose : '}' ∉ v) (hd : d ∈ v)
    (hs : d ∉ s) : ¬ s ++ ['}'] <+: v ++ z := by
  induction v generalizing s with
  | nil => exact absurd hd List.not_mem_nil
  | cons c v ih =>
      intro h
      cases s with
      | nil =>
          have heq : '}' = c := (List.cons_prefix_cons.mp h).1
          exact hclose (heq ▸ List.mem_cons_self)
      | cons e s =>
          obtain ⟨rfl, hrest⟩ := List.cons_prefix_cons.mp h
          rcases List.mem_cons.mp hd with rfl | hd
          · exact hs List.mem_cons_self
          · exact ih (fun hmem => hclose (List.mem_cons_of_mem _ hmem)) hd
              (fun hmem => hs (List.mem_cons_of_mem _ hmem)) hrest

/-- Values that no placeholder of a name can be made of: they hold no brace, and some character
that is not in the name. -/
structure IsInert (name value : List Char) : Prop where
  open_notMem : '{' ∉ value
  close_notMem : '}' ∉ value
  exists_notMem : ∃ d ∈ value, d ∉ name

/-- A closing brace behind the name changes nothing. -/
theorem IsInert.append_close {name value : List Char} (h : IsInert name value) :
    IsInert (name ++ ['}']) value := by
  obtain ⟨d, hd, hname⟩ := h.exists_notMem
  refine ⟨h.open_notMem, h.close_notMem, d, hd, ?_⟩
  have hne : d ≠ '}' := fun heq => h.close_notMem (heq ▸ hd)
  simp [hname, hne]

/-- **A pass puts together no rest of a placeholder**: a text with a closing brace behind it
that begins the filled template begins the template. -/
theorem prefix_of_prefix_fillAll (hf : IsName f.name) {s : List Char} (hopen : '{' ∉ s)
    (hvalue : IsInert s f.value) {t : List Char} (h : s ++ ['}'] <+: fillAll [f] t) :
    s ++ ['}'] <+: t := by
  obtain ⟨-, hclose, d, hd, hds⟩ := hvalue
  have hone : AreSeparate [f] := .singleton hf
  have hmem : f ∈ [f] := List.mem_singleton_self f
  induction pieces [f.name] t generalizing s with
  | nil => exact h
  | @escape _ y hin hrest ih =>
      obtain rfl := List.mem_singleton.mp hin
      rw [hone.fillAll_escaped_append hmem, placeholder_append] at h
      cases s with
      | nil => exact absurd (List.cons_prefix_cons.mp h).1 (by decide)
      | cons e s =>
          have heq : e = '{' := (List.cons_prefix_cons.mp h).1
          exact absurd (heq ▸ List.mem_cons_self) hopen
  | @hole _ y hin hrest ih =>
      obtain rfl := List.mem_singleton.mp hin
      rw [hone.fillAll_placeholder_append hmem] at h
      exact absurd h (not_append_close_isPrefix hclose hd hds)
  | @letter c y hstart hrest ih =>
      rw [fillAll_letter [f] hstart] at h
      cases s with
      | nil => exact List.cons_prefix_cons.mpr ⟨(List.cons_prefix_cons.mp h).1, List.nil_prefix⟩
      | cons e s =>
          obtain ⟨rfl, hs⟩ := List.cons_prefix_cons.mp h
          exact List.cons_prefix_cons.mpr ⟨rfl, ih (fun hm => hopen (List.mem_cons_of_mem _ hm))
            hs fun hm => hds (List.mem_cons_of_mem _ hm)⟩

/-- A pass for one name makes no escape and no placeholder of another. -/
theorem isLetterStart_fillAll (hf : IsName f.name) (hg : IsName g.name) (hne : f.name ≠ g.name)
    (hvalue : IsInert g.name f.value) {c : Char} {y : List Char}
    (hstart : IsLetterStart [f.name, g.name] (c :: y)) :
    IsLetterStart [g.name] (c :: fillAll [f] y) := by
  have hone : AreSeparate [f] := .singleton hf
  have hmem : f ∈ [f] := List.mem_singleton_self f
  obtain ⟨hescape, hhole⟩ := hstart g.name (by simp)
  intro name hname
  obtain rfl := List.mem_singleton.mp hname
  constructor
  · intro h
    obtain ⟨rfl, hrest⟩ := List.cons_prefix_cons.mp h
    -- Behind the first brace the second one was copied, and so was everything behind it.
    induction pieces [f.name] y with
    | nil => exact absurd hrest (by simp [fillAll, fillAllFrom])
    | @escape _ z hin _ _ =>
        obtain rfl := List.mem_singleton.mp hin
        rw [hone.fillAll_escaped_append hmem, placeholder_append] at hrest
        exact hne (eq_of_append_close_isPrefix hg.close_notMem hf.close_notMem
          (List.cons_prefix_cons.mp hrest).2).symm
    | @hole _ z hin _ _ =>
        obtain rfl := List.mem_singleton.mp hin
        rw [hone.fillAll_placeholder_append hmem] at hrest
        obtain ⟨d, v, hv⟩ := List.exists_cons_of_ne_nil
          (List.ne_nil_of_mem hvalue.exists_notMem.choose_spec.1)
        rw [hv] at hrest
        have heq : '{' = d := (List.cons_prefix_cons.mp hrest).1
        exact hvalue.open_notMem (hv ▸ heq ▸ List.mem_cons_self)
    | @letter e z hletter _ _ =>
        rw [fillAll_letter [f] hletter] at hrest
        obtain ⟨rfl, hclosed⟩ := List.cons_prefix_cons.mp hrest
        have hopen : '{' ∉ g.name ++ ['}'] := by simpa using hg.open_notMem
        have hsplit : g.name ++ ['}', '}'] = g.name ++ ['}'] ++ ['}'] := by simp
        rw [hsplit] at hclosed
        have hz := prefix_of_prefix_fillAll hf hopen hvalue.append_close hclosed
        rw [← hsplit] at hz
        exact hescape (List.cons_prefix_cons.mpr ⟨rfl, List.cons_prefix_cons.mpr ⟨rfl, hz⟩⟩)
  · intro h
    obtain ⟨rfl, hrest⟩ := List.cons_prefix_cons.mp h
    exact hhole (List.cons_prefix_cons.mpr
      ⟨rfl, prefix_of_prefix_fillAll hf hg.open_notMem hvalue hrest⟩)

/-- A placeholder of another name is copied. -/
theorem fillAll_other_placeholder (hf : IsName f.name) {name : List Char} (hname : IsName name)
    (hne : f.name ≠ name) (y : List Char) :
    fillAll [f] (placeholder name ++ y) = placeholder name ++ fillAll [f] y :=
  (AreSeparate.singleton hf).fillAll_placeholder_append_of_ne hname (by simpa using hne) y

/-- An escape of another name is copied. -/
theorem fillAll_other_escaped (hf : IsName f.name) {name : List Char} (hname : IsName name)
    (hne : f.name ≠ name) (y : List Char) :
    fillAll [f] (escaped name ++ y) = escaped name ++ fillAll [f] y :=
  (AreSeparate.singleton hf).fillAll_escaped_append_of_ne hname (by simpa using hne) y

/-- **Two passes for two placeholders are one**: the second does not read again what the first
put in, and finds every escape and placeholder that it would have found without the first. -/
theorem fillAll_fillAll (hf : IsName f.name) (hg : IsName g.name) (hne : f.name ≠ g.name)
    (hvalue : IsInert g.name f.value) (t : List Char) :
    fillAll [g] (fillAll [f] t) = fillAll [f, g] t := by
  have hfirst : AreSeparate [f] := .singleton hf
  have hsecond : AreSeparate [g] := .singleton hg
  have hboth : AreSeparate [f, g] := .pair hf hg hne
  have hmemf : f ∈ [f] := List.mem_singleton_self f
  have hmemg : g ∈ [g] := List.mem_singleton_self g
  induction pieces [f.name, g.name] t with
  | nil => rfl
  | @escape name y hin hrest ih =>
      rcases List.mem_pair.mp hin with rfl | rfl
      · rw [hfirst.fillAll_escaped_append hmemf, fillAll_other_placeholder hg hf hne.symm,
          hboth.fillAll_escaped_append List.mem_cons_self, ih]
      · rw [fillAll_other_escaped hf hg hne, hsecond.fillAll_escaped_append hmemg,
          hboth.fillAll_escaped_append (List.mem_cons_of_mem f hmemg), ih]
  | @hole name y hin hrest ih =>
      rcases List.mem_pair.mp hin with rfl | rfl
      · rw [hfirst.fillAll_placeholder_append hmemf,
          fillAll_append_of_notMem [g] hvalue.open_notMem,
          hboth.fillAll_placeholder_append List.mem_cons_self, ih]
      · rw [fillAll_other_placeholder hf hg hne, hsecond.fillAll_placeholder_append hmemg,
          hboth.fillAll_placeholder_append (List.mem_cons_of_mem f hmemg), ih]
  | @letter c y hstart hrest ih =>
      have hfstart : IsLetterStart [f.name] (c :: y) := hstart.mono (by simp)
      rw [fillAll_letter [f] hfstart,
        fillAll_letter [g] (isLetterStart_fillAll hf hg hne hvalue hstart),
        fillAll_letter [f, g] hstart, ih]

/-- A pass writes no mark of an escape by itself. -/
theorem mark_notMem_fillAll (hf : IsName f.name) (hvalue : '\x01' ∉ f.value) {t : List Char}
    (ht : '\x01' ∉ t) : '\x01' ∉ fillAll [f] t := by
  have hone : AreSeparate [f] := .singleton hf
  have hmem : f ∈ [f] := List.mem_singleton_self f
  have hhole : '\x01' ∉ placeholder f.name := by simpa [placeholder] using hf.mark_notMem
  induction pieces [f.name] t with
  | nil => exact List.not_mem_nil
  | @escape name y hin hrest ih =>
      obtain rfl := List.mem_singleton.mp hin
      rw [hone.fillAll_escaped_append hmem]
      exact List.not_mem_append hhole (ih fun hmark => ht (List.mem_append_right _ hmark))
  | @hole name y hin hrest ih =>
      obtain rfl := List.mem_singleton.mp hin
      rw [hone.fillAll_placeholder_append hmem]
      exact List.not_mem_append hvalue (ih fun hmark => ht (List.mem_append_right _ hmark))
  | @letter c y hstart hrest ih =>
      rw [fillAll_letter [f] hstart]
      have hc : '\x01' ≠ c := fun heq => ht (heq ▸ List.mem_cons_self)
      exact List.not_mem_cons_of_ne_of_not_mem hc
        (ih fun hmark => ht (List.mem_cons_of_mem c hmark))

/-- **Filling two placeholders one after the other is one pass.** -/
theorem fill_fill {t name value other otherValue : String} (ht : '\x01' ∉ t.toList)
    (hname : IsName name.toList) (hother : IsName other.toList) (hne : name ≠ other)
    (hvalue : IsInert other.toList value.toList) (hmark : '\x01' ∉ value.toList)
    (hmark' : '\x01' ∉ otherValue.toList) :
    (fill (fill t name value) other otherValue).toList =
      fillAll [⟨name.toList, value.toList⟩, ⟨other.toList, otherValue.toList⟩] t.toList := by
  have hne' : name.toList ≠ other.toList := fun heq => hne (String.toList_inj.mp heq)
  have hfirst : (fill t name value).toList = fillAll [⟨name.toList, value.toList⟩] t.toList := by
    rw [fill, String.toList_ofList, fillChars_eq_fillAll hname hmark ht]
  have hfilled := mark_notMem_fillAll (f := ⟨name.toList, value.toList⟩) hname hmark ht
  rw [fill, String.toList_ofList, hfirst, fillChars_eq_fillAll hother hmark' hfilled]
  exact fillAll_fillAll (f := ⟨name.toList, value.toList⟩) hname hother hne' hvalue t.toList

end

end RealmDirectory.Template
