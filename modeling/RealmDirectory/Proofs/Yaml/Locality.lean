import Mathlib.Data.List.Basic
import Mathlib.Data.List.TakeWhile
import RealmDirectory.Proofs.Text.Splitting
import RealmDirectory.Yaml.Token

/-!
# Reading is local

The reader of a document goes from left to right and hardly looks ahead. So two texts that are the
same up to a place are read in the same way as long as the reader stays in front of it: whatever it
reads there in one text it reads in the other one too. Whether it stays there is seen in the first
text alone, and once it is past the place, it never comes back.

Here the place is one that a blank stands in front of, so that a word never reaches it, and the
text behind it begins with something that belongs neither to a gap nor to a comment. When nothing
stands behind it, the two texts are the same; what was read before may then still differ in length.

## Main definitions

* `Tails`: what two texts have behind the place.
* `Within`, `Kept`, `Past`: the reader is in front of the place, there or at it, past it.
* `Gap.Round`: what one round of reading a gap does.
* `Agree`: two readings that are the same until the first one is past the place.

## Main results

* `Within.takeWhile`: a word is the same in both texts.
* `Kept.skipWhile`, `Kept.skipComment`, `Kept.takeBreak?`: single moves through a gap.
* `Gap.exists_of_readFrom_succ`: a gap is over, or has one more round.
* `Gap.agree_readFrom`: gaps are read locally.
-/

namespace RealmDirectory.Yaml

/-! ### Texts that end with a blank -/

/-- Whether a text ends with a blank. -/
def endsBlank (x : List Char) : Bool := x.getLast?.any isBlank

theorem endsBlank_append {z : List Char} (hz : z ≠ []) (u : List Char) :
    endsBlank (u ++ z) = endsBlank z := by
  rw [endsBlank, List.getLast?_append_of_ne_nil u hz, endsBlank]

/-- The text up to the blank at the end is split at the first character without a property that
blanks do not have. -/
theorem exists_split_of_endsBlank {p : Char → Bool} {x : List Char} (hx : endsBlank x = true)
    (hp : ∀ b, isBlank b = true → p b = false) :
    ∃ w b z, x = w ++ b :: z ∧ (∀ c ∈ w, p c = true) ∧ p b = false ∧
      endsBlank (b :: z) = true := by
  cases hdrop : x.dropWhile p with
  | nil =>
      obtain ⟨b, hlast, hblank⟩ := (Option.any_eq_true _ _).mp hx
      have hall := List.dropWhile_eq_nil_iff.mp hdrop b (List.mem_of_getLast? hlast)
      rw [hp b hblank] at hall
      cases hall
  | cons b z =>
      obtain ⟨hb, heq, hall⟩ := Text.eq_of_dropWhile_eq_cons hdrop
      refine ⟨_, b, z, heq, hall, hb, ?_⟩
      rwa [heq, endsBlank_append (List.cons_ne_nil b z)] at hx

theorem ne_nil_of_endsBlank_append {u z : List Char} (h : endsBlank (u ++ z) = true)
    (hu : endsBlank u = false) : z ≠ [] := by
  rintro rfl
  rw [List.append_nil, hu] at h
  cases h

/-- A line break is no blank. -/
theorem isBlank_of_isBreak {b : Char} (h : isBreak b = true) : isBlank b = false := by
  simp only [isBreak, Bool.or_eq_true, beq_iff_eq] at h
  rcases h with (((rfl | rfl) | rfl) | rfl) | rfl <;> decide

/-! ### Two texts -/

/-- What two texts have behind a place: nothing, or something that begins with a dollar sign in
the first and with no gap or comment in the second. The numbers of characters that were read at
some time before are counted separately. -/
structure Tails where
  /-- What the first text has behind the place. -/
  rest₁ : List Char
  /-- What the second text has there. -/
  rest₂ : List Char
  /-- A number of characters of the first text. -/
  index₁ : Nat
  /-- The number of characters of the second text that belongs to it. -/
  index₂ : Nat
  solid : rest₁ = [] ∧ rest₂ = [] ∨
    ∃ t₁ b t₂, rest₁ = '$' :: t₁ ∧ rest₂ = b :: t₂ ∧
      isBlank b = false ∧ isBreak b = false ∧ b ≠ '#'
  start : index₂ = 0 ↔ index₁ = 0

/-- There is nothing behind the place. -/
def Tails.over (index₁ index₂ : Nat) (h : index₂ = 0 ↔ index₁ = 0) : Tails :=
  ⟨[], [], index₁, index₂, .inl ⟨rfl, rfl⟩, h⟩

variable {t : Tails} {x u : List Char} {c₁ c₂ c : Cursor} {α β : Type}

/-- Places in two texts with the same text `x` in front of what the texts have behind. -/
structure Alike (t : Tails) (x : List Char) (c₁ c₂ : Cursor) : Prop where
  rest₁ : c₁.rest = x ++ t.rest₁
  rest₂ : c₂.rest = x ++ t.rest₂
  line : c₂.line = c₁.line
  column : c₂.column = c₁.column
  index : ∃ n, c₁.index = t.index₁ + n ∧ c₂.index = t.index₂ + n

/-- The places are in front of what the texts have behind. -/
def Within (t : Tails) (c₁ c₂ : Cursor) : Prop :=
  ∃ x, Alike t x c₁ c₂ ∧ (t.rest₁ = [] ∨ endsBlank x = true)

/-- Something was read before, also on the same line. -/
def Cursor.IsInside (c : Cursor) : Prop := 1 ≤ c.column ∧ 1 ≤ c.index

/-- The places are in front of what the texts have behind, or at its beginning, which is not at
the start of a line. -/
def Kept (t : Tails) (c₁ c₂ : Cursor) : Prop :=
  ∃ x, Alike t x c₁ c₂ ∧ (t.rest₁ = [] ∨ endsBlank x = true ∨ x = [] ∧ c₁.IsInside)

/-- A place in the first text is past the beginning of what it has behind. -/
def Past (t : Tails) (c : Cursor) : Prop :=
  c.rest <:+ t.rest₁ ∧ c.rest.length < t.rest₁.length

/-- Who is past a place stays past it. -/
theorem Past.of_suffix (h : Past t c₁) (hsuffix : c.rest <:+ c₁.rest) : Past t c :=
  ⟨hsuffix.trans h.1, Nat.lt_of_le_of_lt hsuffix.length_le h.2⟩

theorem Within.kept (h : Within t c₁ c₂) : Kept t c₁ c₂ := by
  obtain ⟨x, hx, hroom⟩ := h
  exact ⟨x, hx, hroom.imp_right .inl⟩

/-- Who is not in front of the place is at it. -/
theorem Kept.within_or (h : Kept t c₁ c₂) :
    Within t c₁ c₂ ∨ Alike t [] c₁ c₂ ∧ c₁.IsInside ∧ ∃ t₁ b t₂, t.rest₁ = '$' :: t₁ ∧
      t.rest₂ = b :: t₂ ∧ isBlank b = false ∧ isBreak b = false ∧ b ≠ '#' := by
  obtain ⟨x, hx, hroom | hroom | ⟨rfl, hinside⟩⟩ := h
  · exact .inl ⟨x, hx, .inl hroom⟩
  · exact .inl ⟨x, hx, .inr hroom⟩
  · rcases t.solid with ⟨hnone, -⟩ | hsolid
    · exact .inl ⟨[], hx, .inl hnone⟩
    · exact .inr ⟨hx, hinside, hsolid⟩

/-- With nothing behind, a place is in front of it in the same text. -/
theorem within_over (c : Cursor) : Within (.over c.index c.index Iff.rfl) c c :=
  ⟨c.rest, ⟨(List.append_nil _).symm, (List.append_nil _).symm, rfl, rfl, 0, rfl, rfl⟩, .inl rfl⟩

/-- Nobody is past the end. -/
theorem not_past_over {i j : Nat} {h : j = 0 ↔ i = 0} : ¬ Past (.over i j h) c :=
  fun hpast => Nat.not_lt_zero _ hpast.2

/-! ### Moves -/

@[simp]
theorem Cursor.advance_zero (c : Cursor) : c.advance 0 = c := rfl

theorem Cursor.advance_add (c : Cursor) (m n : Nat) :
    (c.advance m).advance n = c.advance (m + n) := by
  simp only [Cursor.advance, List.drop_drop, Nat.add_assoc]

theorem Cursor.rest_advance_suffix (c : Cursor) (n : Nat) : (c.advance n).rest <:+ c.rest :=
  List.drop_suffix n c.rest

theorem Cursor.rest_advance_append (h : c.rest = u ++ x) : (c.advance u.length).rest = x := by
  rw [advance, h, List.drop_left]

theorem Alike.advance (h : Alike t (u ++ x) c₁ c₂) :
    Alike t x (c₁.advance u.length) (c₂.advance u.length) := by
  obtain ⟨n, h₁, h₂⟩ := h.index
  refine ⟨?_, ?_, h.line, ?_, n + u.length, ?_, ?_⟩
  · exact Cursor.rest_advance_append (h.rest₁.trans (List.append_assoc u x t.rest₁))
  · exact Cursor.rest_advance_append (h.rest₂.trans (List.append_assoc u x t.rest₂))
  · rw [Cursor.advance, Cursor.advance, h.column]
  · rw [Cursor.advance, h₁, Nat.add_assoc]
  · rw [Cursor.advance, h₂, Nat.add_assoc]

theorem Alike.nextLine (h : Alike t (u ++ x) c₁ c₂) :
    Alike t x (c₁.nextLine u.length) (c₂.nextLine u.length) := by
  obtain ⟨n, h₁, h₂⟩ := h.index
  refine ⟨?_, ?_, ?_, rfl, n + u.length, ?_, ?_⟩
  · rw [Cursor.nextLine, h.rest₁, List.append_assoc, List.drop_left]
  · rw [Cursor.nextLine, h.rest₂, List.append_assoc, List.drop_left]
  · rw [Cursor.nextLine, Cursor.nextLine, h.line]
  · rw [Cursor.nextLine, h₁, Nat.add_assoc]
  · rw [Cursor.nextLine, h₂, Nat.add_assoc]

/-- The text in front of the place may be passed over, all of it if it is not empty. -/
theorem Alike.kept_advance (h : Alike t (u ++ x) c₁ c₂)
    (hroom : t.rest₁ = [] ∨ endsBlank (u ++ x) = true) :
    Kept t (c₁.advance u.length) (c₂.advance u.length) := by
  refine ⟨x, h.advance, hroom.imp_right fun hblank => ?_⟩
  cases x with
  | cons b x => exact .inl (endsBlank_append (List.cons_ne_nil b x) u ▸ hblank)
  | nil =>
      cases u with
      | nil => cases hblank
      | cons b u =>
          have hpos : 1 ≤ (b :: u).length := Nat.succ_le_succ (Nat.zero_le _)
          exact .inr ⟨rfl, hpos.trans (Nat.le_add_left _ _), hpos.trans (Nat.le_add_left _ _)⟩

/-- The end of a text that is in front of the place is in front of it. -/
theorem Alike.within_advance (h : Alike t (u ++ x) c₁ c₂)
    (hroom : t.rest₁ = [] ∨ endsBlank (u ++ x) = true) (hx : t.rest₁ = [] ∨ x ≠ []) :
    Within t (c₁.advance u.length) (c₂.advance u.length) := by
  refine ⟨x, h.advance, ?_⟩
  rcases hx with hnone | hx
  · exact .inl hnone
  · exact hroom.imp_right fun hblank => endsBlank_append hx u ▸ hblank

theorem Alike.within_nextLine (h : Alike t (u ++ x) c₁ c₂)
    (hroom : t.rest₁ = [] ∨ endsBlank (u ++ x) = true) (hu : endsBlank u = false) :
    Within t (c₁.nextLine u.length) (c₂.nextLine u.length) := by
  refine ⟨x, h.nextLine, hroom.imp_right fun hblank => ?_⟩
  rwa [endsBlank_append (ne_nil_of_endsBlank_append hblank hu)] at hblank

/-! ### Words -/

/-- What comes next is the same in both texts. -/
theorem Within.head? (h : Within t c₁ c₂) : c₂.head? = c₁.head? := by
  obtain ⟨x, hx, hroom⟩ := h
  cases x with
  | cons b x => rw [Cursor.head?, Cursor.head?, hx.rest₁, hx.rest₂]; rfl
  | nil =>
      rcases t.solid with ⟨h₁, h₂⟩ | ⟨t₁, b, t₂, h₁, -⟩
      · rw [Cursor.head?, Cursor.head?, hx.rest₁, hx.rest₂, h₁, h₂]
      · rcases hroom with hnone | hblank
        · rw [h₁] at hnone
          cases hnone
        · cases hblank

/-- **A word is the same in both texts**, and ends in front of the place. -/
theorem Within.takeWhile (h : Within t c₁ c₂) {p : Char → Bool}
    (hp : ∀ b, isBlank b = true → p b = false) :
    c₂.rest.takeWhile p = c₁.rest.takeWhile p ∧
      ∀ n ≤ (c₁.rest.takeWhile p).length, Within t (c₁.advance n) (c₂.advance n) := by
  obtain ⟨x, hx, hroom | hblank⟩ := h
  · have h₂ : t.rest₂ = [] := by
      rcases t.solid with ⟨-, h₂⟩ | ⟨t₁, b, t₂, h₁, -⟩
      · exact h₂
      · rw [h₁] at hroom
        cases hroom
    have hsame : c₂.rest = c₁.rest := by rw [hx.rest₁, hx.rest₂, hroom, h₂]
    refine ⟨by rw [hsame], ?_⟩
    intro n hn
    have heq : c₁.rest = x := by rw [hx.rest₁, hroom, List.append_nil]
    rw [heq] at hn
    have hlength : (x.take n).length = n :=
      List.length_take_of_le (hn.trans (List.takeWhile_prefix p).length_le)
    rw [← List.take_append_drop n x] at hx
    exact hlength ▸ hx.within_advance (.inl hroom) (.inl hroom)
  · obtain ⟨w, b, z, rfl, hall, hb, hz⟩ := exists_split_of_endsBlank hblank hp
    have h₁ : c₁.rest.takeWhile p = w := by
      rw [hx.rest₁, List.append_assoc]
      exact (Text.takeWhile_dropWhile_append hall hb _).1
    have h₂ : c₂.rest.takeWhile p = w := by
      rw [hx.rest₂, List.append_assoc]
      exact (Text.takeWhile_dropWhile_append hall hb _).1
    rw [h₁, h₂]
    refine ⟨rfl, fun n hn => ?_⟩
    have hlength : (w.take n).length = n := List.length_take_of_le hn
    rw [← List.take_append_drop n w, List.append_assoc] at hx hblank
    exact hlength ▸ hx.within_advance (.inr hblank)
      (.inr (List.append_ne_nil_of_right_ne_nil _ (List.cons_ne_nil b z)))

/-- A character that is no blank is passed over. -/
theorem Within.advance_one (h : Within t c₁ c₂) {b : Char} (hb : c₁.head? = some b)
    (hblank : isBlank b = false) : Within t (c₁.advance 1) (c₂.advance 1) := by
  obtain ⟨x, hx, hroom⟩ := h
  cases x with
  | nil =>
      rcases t.solid with ⟨h₁, -⟩ | ⟨t₁, d, t₂, h₁, -⟩
      · rw [Cursor.head?, hx.rest₁, h₁] at hb
        cases hb
      · rcases hroom with hnone | hblank
        · rw [h₁] at hnone
          cases hnone
        · cases hblank
  | cons d x =>
      obtain rfl : d = b := by
        rw [Cursor.head?, hx.rest₁] at hb
        exact Option.some.inj hb
      have hx : Alike t ([d] ++ x) c₁ c₂ := hx
      refine hx.within_advance hroom ?_
      rcases hroom with hnone | hends
      · exact .inl hnone
      · refine .inr ?_
        rintro rfl
        have hd : isBlank d = true := by simpa [endsBlank] using hends
        rw [hblank] at hd
        cases hd

/-- Whether the text goes on with a gap is the same in both texts. -/
theorem isWordEnd_eq_head? (s : List Char) :
    isWordEnd s = s.head?.all fun b => isBlank b || isBreak b := by
  cases s <;> rfl

theorem isLineEnd_eq_head? (s : List Char) : isLineEnd s = s.head?.all isBreak := by
  cases s <;> rfl

theorem Within.isWordEnd (h : Within t c₁ c₂) : isWordEnd c₂.rest = isWordEnd c₁.rest := by
  rw [isWordEnd_eq_head?, isWordEnd_eq_head?]
  exact congrArg (Option.all _) h.head?

/-! ### Gaps -/

/-- Nothing is left of one text when nothing is left of the other one. -/
theorem Kept.rest_eq_nil (h : Kept t c₁ c₂) (hnil : c₁.rest = []) : c₂.rest = [] := by
  obtain ⟨x, hx, -⟩ := h
  rw [hx.rest₁] at hnil
  obtain ⟨rfl, h₁⟩ := List.append_eq_nil_iff.mp hnil
  rcases t.solid with ⟨-, h₂⟩ | ⟨t₁, b, t₂, hsolid, -⟩
  · rw [hx.rest₂, h₂, List.nil_append]
  · rw [hsolid] at h₁
    cases h₁

theorem Kept.rest_ne_nil (h : Kept t c₁ c₂) (hne : c₁.rest ≠ []) : c₂.rest ≠ [] := by
  obtain ⟨x, hx, -⟩ := h
  rw [hx.rest₁] at hne
  rw [hx.rest₂]
  rcases t.solid with ⟨h₁, -⟩ | ⟨t₁, b, t₂, -, h₂, -⟩
  · rw [h₁, List.append_nil] at hne
    exact List.append_ne_nil_of_left_ne_nil hne _
  · exact List.append_ne_nil_of_right_ne_nil _ (h₂ ▸ List.cons_ne_nil b t₂)

/-- Some characters in front of the place are passed over. -/
theorem Alike.kept_advance_le (h : Alike t x c₁ c₂)
    (hroom : t.rest₁ = [] ∨ endsBlank x = true ∨ x = [] ∧ c₁.IsInside) {n : Nat}
    (hn : n ≤ x.length) : Kept t (c₁.advance n) (c₂.advance n) := by
  have hlength : (x.take n).length = n := List.length_take_of_le hn
  rw [← List.take_append_drop n x] at h
  rcases hroom with hnone | hblank | ⟨rfl, hinside⟩
  · exact hlength ▸ h.kept_advance (.inl hnone)
  · rw [← List.take_append_drop n x] at hblank
    exact hlength ▸ h.kept_advance (.inr hblank)
  · obtain rfl : n = 0 := Nat.le_zero.mp hn
    exact ⟨[], h, .inr (.inr ⟨rfl, hinside⟩)⟩

theorem takeWhile_append_of_takeWhile_eq_nil {p : Char → Bool} {y : List Char}
    (hy : y.takeWhile p = []) (x : List Char) : (x ++ y).takeWhile p = x.takeWhile p := by
  induction x with
  | nil => exact hy
  | cons b x ih =>
      rw [List.cons_append, List.takeWhile_cons, List.takeWhile_cons, ih]

/-- What is behind the place begins with no blank. -/
theorem Tails.takeWhile (t : Tails) {p : Char → Bool} (hp : ∀ b, p b = true → isBlank b = true) :
    t.rest₁.takeWhile p = [] ∧ t.rest₂.takeWhile p = [] := by
  rcases t.solid with ⟨h₁, h₂⟩ | ⟨t₁, b, t₂, h₁, h₂, hblank, -⟩
  · rw [h₁, h₂]
    exact ⟨rfl, rfl⟩
  · have hdollar : p '$' = false := Bool.eq_false_iff.mpr fun h => absurd (hp _ h) (by decide)
    have hb : p b = false := Bool.eq_false_iff.mpr fun h => by
      rw [hp b h] at hblank
      cases hblank
    rw [h₁, h₂, List.takeWhile_cons, List.takeWhile_cons, hdollar, hb]
    exact ⟨rfl, rfl⟩

/-- **Blanks are the same in both texts**, and each of them is in front of the place. -/
theorem Kept.takeWhile (h : Kept t c₁ c₂) {p : Char → Bool}
    (hp : ∀ b, p b = true → isBlank b = true) :
    c₂.rest.takeWhile p = c₁.rest.takeWhile p ∧
      ∀ n ≤ (c₁.rest.takeWhile p).length, Kept t (c₁.advance n) (c₂.advance n) := by
  obtain ⟨x, hx, hroom⟩ := h
  obtain ⟨ht₁, ht₂⟩ := t.takeWhile hp
  have h₁ : c₁.rest.takeWhile p = x.takeWhile p := by
    rw [hx.rest₁, takeWhile_append_of_takeWhile_eq_nil ht₁]
  have h₂ : c₂.rest.takeWhile p = x.takeWhile p := by
    rw [hx.rest₂, takeWhile_append_of_takeWhile_eq_nil ht₂]
  refine ⟨h₂.trans h₁.symm, fun n hn => hx.kept_advance_le hroom (hn.trans ?_)⟩
  rw [h₁]
  exact (List.takeWhile_prefix p).length_le

theorem Kept.skipWhile (h : Kept t c₁ c₂) {p : Char → Bool}
    (hp : ∀ b, p b = true → isBlank b = true) : Kept t (c₁.skipWhile p) (c₂.skipWhile p) := by
  obtain ⟨hsame, hkept⟩ := h.takeWhile hp
  rw [Cursor.skipWhile, Cursor.skipWhile, hsame]
  exact hkept _ (Nat.le_refl _)

/-- **The line is the same in both texts**, unless the place is on it. -/
theorem Kept.takeLine (h : Kept t c₁ c₂) :
    Past t (c₁.skipWhile fun b => !isBreak b) ∨
      (c₂.rest.takeWhile fun b => !isBreak b) = (c₁.rest.takeWhile fun b => !isBreak b) ∧
        Kept t (c₁.skipWhile fun b => !isBreak b) (c₂.skipWhile fun b => !isBreak b) := by
  obtain ⟨x, hx, hroom⟩ := h
  cases hdrop : x.dropWhile fun b => !isBreak b with
  | cons b z =>
      obtain ⟨hb, heq, hall⟩ := Text.eq_of_dropWhile_eq_cons hdrop
      generalize x.takeWhile (fun b => !isBreak b) = w at heq hall
      subst heq
      have h₁ : (c₁.rest.takeWhile fun b => !isBreak b) = w := by
        rw [hx.rest₁, List.append_assoc]
        exact (Text.takeWhile_dropWhile_append hall hb _).1
      have h₂ : (c₂.rest.takeWhile fun b => !isBreak b) = w := by
        rw [hx.rest₂, List.append_assoc]
        exact (Text.takeWhile_dropWhile_append hall hb _).1
      rw [Cursor.skipWhile, Cursor.skipWhile, h₁, h₂]
      refine .inr ⟨rfl, hx.kept_advance_le hroom ?_⟩
      rw [List.length_append]
      exact Nat.le_add_right _ _
  | nil =>
      have hall : ∀ b ∈ x, (!isBreak b) = true := List.dropWhile_eq_nil_iff.mp hdrop
      have happend (y : List Char) : ((x ++ y).takeWhile fun b => !isBreak b) =
          x ++ y.takeWhile fun b => !isBreak b := List.takeWhile_append_of_pos hall
      have h₁ := happend t.rest₁
      have h₂ := happend t.rest₂
      rw [← hx.rest₁] at h₁
      rw [← hx.rest₂] at h₂
      rcases t.solid with ⟨hnil₁, hnil₂⟩ | ⟨t₁, b, t₂, hsolid, -⟩
      · rw [hnil₁, List.takeWhile_nil, List.append_nil] at h₁
        rw [hnil₂, List.takeWhile_nil, List.append_nil] at h₂
        rw [Cursor.skipWhile, Cursor.skipWhile, h₁, h₂]
        exact .inr ⟨rfl, hx.kept_advance_le hroom (Nat.le_refl _)⟩
      · refine .inl ?_
        rw [hsolid, List.takeWhile_cons_of_pos (by decide)] at h₁
        rw [Past, Cursor.skipWhile, Cursor.advance, h₁, hx.rest₁, hsolid, List.length_append,
          List.length_cons, List.drop_append, List.drop_of_length_le (Nat.le_add_right _ _),
          List.nil_append, Nat.add_sub_cancel_left, List.drop_succ_cons]
        refine ⟨(List.drop_suffix _ _).trans (List.suffix_cons _ _), ?_⟩
        exact Nat.lt_succ_of_le (List.drop_suffix _ _).length_le

theorem Cursor.rest_skipWhile_suffix (c : Cursor) (p : Char → Bool) :
    (c.skipWhile p).rest <:+ c.rest := c.rest_advance_suffix _

theorem Cursor.rest_skipComment_suffix (c : Cursor) : c.skipComment.rest <:+ c.rest := by
  rw [skipComment]
  split
  · exact c.rest_skipWhile_suffix _
  · exact List.suffix_refl _

/-- A comment is passed over, unless the place is in it. -/
theorem Kept.skipComment (h : Kept t c₁ c₂) :
    Past t c₁.skipComment ∨ Kept t c₁.skipComment c₂.skipComment := by
  rcases h.within_or with hwithin | ⟨hx, -, t₁, b, t₂, h₁, h₂, -, -, hb⟩
  · rw [Cursor.skipComment, Cursor.skipComment, hwithin.head?]
    split
    · exact h.takeLine.imp_right And.right
    · exact .inr h
  · have hhead₁ : c₁.head? ≠ some '#' := by
      rw [Cursor.head?, hx.rest₁, h₁]
      exact fun heq => absurd (Option.some.inj heq) (by decide)
    have hhead₂ : c₂.head? ≠ some '#' := by
      rw [Cursor.head?, hx.rest₂, h₂]
      exact fun heq => hb (Option.some.inj heq)
    rw [Cursor.skipComment, Cursor.skipComment, if_neg hhead₁, if_neg hhead₂]
    exact .inr h

/-! ### Line breaks -/

/-- The break that a text with at least one character begins with. -/
theorem Cursor.takeBreak?_cons {b : Char} {r : List Char} (h : c.rest = b :: r) :
    c.takeBreak? =
      if b = '\r' ∧ r.head? = some '\n' then some (['\n'], c.nextLine 2)
      else if isBreak b then
        some (if b == '\n' || b == '\r' || b == '\x85' then ['\n'] else [b], c.nextLine 1)
      else none := by
  rw [takeBreak?, h]
  split
  · next hrest =>
      obtain ⟨rfl, rfl⟩ := List.cons.inj hrest
      rfl
  · next hne hrest =>
      obtain ⟨rfl, rfl⟩ := List.cons.inj hrest
      have hcrlf : ¬ (b = '\r' ∧ r.head? = some '\n') := by
        rintro ⟨hb, hhead⟩
        obtain ⟨s, rfl⟩ := List.head?_eq_some_iff.mp hhead
        exact hne s hb rfl
      rw [if_neg hcrlf]
      by_cases hplain : (b == '\n' || b == '\r' || b == '\x85') = true
      · have hbreak : isBreak b = true := by
          rw [isBreak, hplain]
          rfl
        rw [if_pos hplain, if_pos hbreak, if_pos hplain]
      · rw [if_neg hplain, if_neg hplain]
  · next hrest => cases hrest

theorem Cursor.takeBreak?_nil (h : c.rest = []) : c.takeBreak? = none := by
  rw [takeBreak?, h]

theorem Cursor.isBreak_of_takeBreak?_eq_none {b : Char} {r : List Char} (h : c.rest = b :: r)
    (hnone : c.takeBreak? = none) : isBreak b = false := by
  refine Bool.eq_false_iff.mpr fun hb => ?_
  rw [takeBreak?_cons h, if_pos hb] at hnone
  split at hnone <;> cases hnone

/-- A break takes at least one character, counts as one, and ends the line. -/
theorem Cursor.exists_of_takeBreak? {s : List Char} {d : Cursor}
    (h : c.takeBreak? = some (s, d)) :
    c.rest ≠ [] ∧ ∃ n b, d = c.nextLine (n + 1) ∧ s = [b] ∧ isBreak b = true := by
  cases hrest : c.rest with
  | nil =>
      rw [takeBreak?_nil hrest] at h
      cases h
  | cons a r =>
      refine ⟨List.cons_ne_nil a r, ?_⟩
      rw [takeBreak?_cons hrest] at h
      split at h
      · obtain ⟨rfl, rfl⟩ := Prod.mk.inj (Option.some.inj h)
        exact ⟨1, '\n', rfl, rfl, rfl⟩
      split at h
      next hbreak =>
        obtain ⟨rfl, rfl⟩ := Prod.mk.inj (Option.some.inj h)
        refine ⟨0, if a == '\n' || a == '\r' || a == '\x85' then '\n' else a, rfl, ?_, ?_⟩
        · split <;> rfl
        · split
          · rfl
          · exact hbreak
      · cases h

theorem Cursor.rest_of_takeBreak? {s : List Char} {d : Cursor} (h : c.takeBreak? = some (s, d)) :
    d.rest <:+ c.rest ∧ d.rest.length < c.rest.length := by
  obtain ⟨hne, n, b, rfl, -, -⟩ := exists_of_takeBreak? h
  obtain ⟨a, r, hrest⟩ := List.exists_cons_of_ne_nil hne
  rw [nextLine, hrest, List.drop_succ_cons]
  exact ⟨(List.drop_suffix n r).trans (List.suffix_cons a r),
    Nat.lt_succ_of_le (List.drop_suffix n r).length_le⟩

theorem Cursor.takeBreak?_of_isBreak_eq_false {b : Char} {r : List Char} (h : c.rest = b :: r)
    (hb : isBreak b = false) : c.takeBreak? = none := by
  have hcr : ¬ (b = '\r' ∧ r.head? = some '\n') := by
    rintro ⟨rfl, -⟩
    cases hb
  rw [takeBreak?_cons h, if_neg hcr, hb]
  rfl

/-- **A break is the same in both texts**, and ends in front of the place. -/
theorem Kept.takeBreak? (h : Kept t c₁ c₂) :
    c₁.takeBreak? = none ∧ c₂.takeBreak? = none ∨
      ∃ b d₁ d₂, c₁.takeBreak? = some (b, d₁) ∧ c₂.takeBreak? = some (b, d₂) ∧
        Within t d₁ d₂ := by
  rcases h.within_or with ⟨x, hx, hroom⟩ | ⟨hx, -, t₁, b, t₂, h₁, h₂, -, hb, -⟩
  · cases x with
    | nil =>
        have hnone : t.rest₁ = [] := hroom.resolve_right (by decide)
        have hrest : c₁.rest = [] := by rw [hx.rest₁, hnone, List.append_nil]
        exact .inl ⟨Cursor.takeBreak?_nil hrest, Cursor.takeBreak?_nil (h.rest_eq_nil hrest)⟩
    | cons b x =>
        have hrest₁ : c₁.rest = b :: (x ++ t.rest₁) := hx.rest₁
        have hrest₂ : c₂.rest = b :: (x ++ t.rest₂) := hx.rest₂
        cases hb : isBreak b with
        | false =>
            exact .inl ⟨Cursor.takeBreak?_of_isBreak_eq_false hrest₁ hb,
              Cursor.takeBreak?_of_isBreak_eq_false hrest₂ hb⟩
        | true =>
            have hsingle : endsBlank [b] = false := isBlank_of_isBreak hb
            have hnext : Within t (c₁.advance 1) (c₂.advance 1) :=
              hx.within_advance (u := [b]) hroom (hroom.imp_right fun hblank =>
                ne_nil_of_endsBlank_append (u := [b]) hblank hsingle)
            have hsame : (x ++ t.rest₂).head? = (x ++ t.rest₁).head? := by
              have hhead := hnext.head?
              rwa [Cursor.head?, Cursor.head?, Cursor.advance, Cursor.advance, hrest₁, hrest₂,
                List.drop_succ_cons, List.drop_succ_cons] at hhead
            rw [Cursor.takeBreak?_cons hrest₁, Cursor.takeBreak?_cons hrest₂, hsame, if_pos hb,
              if_pos hb]
            by_cases hcr : b = '\r' ∧ (x ++ t.rest₁).head? = some '\n'
            · rw [if_pos hcr, if_pos hcr]
              refine .inr ⟨_, _, _, rfl, rfl, ?_⟩
              obtain ⟨rfl, hhead⟩ := hcr
              cases x with
              | nil =>
                  have hnone : t.rest₁ = [] := hroom.resolve_right (by decide)
                  rw [hnone] at hhead
                  cases hhead
              | cons d x =>
                  obtain rfl : d = '\n' := Option.some.inj hhead
                  exact hx.within_nextLine (u := ['\r', '\n']) hroom (by decide)
            · rw [if_neg hcr, if_neg hcr]
              exact .inr ⟨_, _, _, rfl, rfl, hx.within_nextLine (u := [b]) hroom hsingle⟩
  · have hrest₁ : c₁.rest = '$' :: t₁ := by rw [hx.rest₁, h₁, List.nil_append]
    have hrest₂ : c₂.rest = b :: t₂ := by rw [hx.rest₂, h₂, List.nil_append]
    exact .inl ⟨Cursor.takeBreak?_of_isBreak_eq_false hrest₁ (by decide),
      Cursor.takeBreak?_of_isBreak_eq_false hrest₂ hb⟩

theorem Cursor.rest_skipBreak_suffix (c : Cursor) : c.skipBreak.rest <:+ c.rest := by
  rw [skipBreak]
  cases hbreak : c.takeBreak? with
  | none => exact List.suffix_refl _
  | some p => exact (rest_of_takeBreak? hbreak).1

theorem Kept.skipBreak (h : Kept t c₁ c₂) : Kept t c₁.skipBreak c₂.skipBreak := by
  rw [Cursor.skipBreak, Cursor.skipBreak]
  rcases h.takeBreak? with ⟨h₁, h₂⟩ | ⟨b, d₁, d₂, h₁, h₂, hd⟩
  · rw [h₁, h₂]
    exact h
  · rw [h₁, h₂]
    exact hd.kept

/-! ### Readers -/

/-- Two readings, of which the first begins at a place: it goes on in what was left there, and
unless it gets past the place, the second one gives the same and stays with it. -/
def Agree (t : Tails) (c : Cursor) (m₁ m₂ : Except Fault (α × Cursor)) : Prop :=
  ∀ a d₁, m₁ = .ok (a, d₁) → d₁.rest <:+ c.rest ∧
    (Past t d₁ ∨ ∃ d₂, m₂ = .ok (a, d₂) ∧ Kept t d₁ d₂)

/-- What comes next in a gap is the same in both texts. -/
theorem Kept.head?_isBlank (h : Kept t c₁ c₂) :
    c₂.head?.any isBlank = c₁.head?.any isBlank := by
  rcases h.within_or with hwithin | ⟨hx, -, t₁, b, t₂, h₁, h₂, hb, -⟩
  · rw [hwithin.head?]
  · rw [Cursor.head?, Cursor.head?, hx.rest₁, hx.rest₂, h₁, h₂]
    exact hb

theorem Cursor.exists_of_head? {b : Char} (h : c.head? = some b) : ∃ r, c.rest = b :: r :=
  List.head?_eq_some_iff.mp h

theorem Cursor.exists_head? (h : c.rest ≠ []) : ∃ b, c.head? = some b := by
  obtain ⟨b, r, hrest⟩ := List.exists_cons_of_ne_nil h
  exact ⟨b, by rw [head?, hrest]; rfl⟩

/-- There is less left behind a character. -/
theorem Cursor.length_advance_lt (h : c.rest ≠ []) {n : Nat} (hn : 1 ≤ n) :
    (c.advance n).rest.length < c.rest.length := by
  rw [advance, List.length_drop]
  have hpos : 0 < c.rest.length := List.length_pos_of_ne_nil h
  omega

theorem Kept.line (h : Kept t c₁ c₂) : c₂.line = c₁.line := by
  obtain ⟨x, hx, -⟩ := h
  exact hx.line

theorem Kept.column (h : Kept t c₁ c₂) : c₂.column = c₁.column := by
  obtain ⟨x, hx, -⟩ := h
  exact hx.column

/-- A blank is passed over. -/
theorem Kept.advance_blank (h : Kept t c₁ c₂) {b : Char} (hb : c₁.head? = some b)
    (hblank : isBlank b = true) :
    c₂.head? = some b ∧ Kept t (c₁.advance 1) (c₂.advance 1) := by
  obtain ⟨r, hr⟩ := Cursor.exists_of_head? hb
  obtain ⟨hsame, hkept⟩ := h.takeWhile (p := isBlank) fun _ => id
  rw [hr, List.takeWhile_cons_of_pos hblank] at hsame hkept
  refine ⟨?_, hkept 1 (Nat.succ_le_succ (Nat.zero_le _))⟩
  have hhead : (c₂.rest.takeWhile isBlank).head? = some b := by rw [hsame, List.head?_cons]
  rw [List.head?_takeWhile] at hhead
  exact (Option.filter_eq_some_iff.mp hhead).1

/-- Nothing is read at the end. -/
theorem Gap.readFrom_of_nil (indent n : Nat) (g : Gap) (h : c.rest = []) :
    readFrom indent n g c = .ok (g, c) := by
  cases n with
  | zero => rfl
  | succ n =>
      have hhead : c.head? = none := by rw [Cursor.head?, h]; rfl
      rw [readFrom, Cursor.takeBreak?_nil h, hhead]

/-- What one round of reading a gap does: it passes over a line break, or over a blank, which
belongs to the gap on its first line and indents the text on the others. -/
inductive Gap.Round (g : Gap) (c : Cursor) : Gap → Cursor → Prop
  | line {s : List Char} {e : Cursor} (hbreak : c.takeBreak? = some (s, e)) :
      Round g c { blanks := [], breaks := g.breaks ++ [s] } e
  | blank {b : Char} (hhead : c.head? = some b) (hblank : isBlank b = true) :
      Round g c { g with blanks := g.blanks ++ [b] } (c.advance 1)
  | indentation (hne : c.rest ≠ []) (hbreaks : g.breaks ≠ []) : Round g c g (c.advance 1)

/-- **A gap is over or has one more round.** -/
theorem Gap.exists_of_readFrom_succ {indent n : Nat} {g g' : Gap} {d : Cursor}
    (hread : readFrom indent (n + 1) g c = .ok (g', d)) :
    (c.rest = [] ∨ isWordEnd c.rest = false) ∧ g' = g ∧ d = c ∨
      ∃ g₁ e, Round g c g₁ e ∧ readFrom indent n g₁ e = .ok (g', d) := by
  rw [readFrom] at hread
  cases hbreak : c.takeBreak? with
  | some p =>
      rw [hbreak] at hread
      exact .inr ⟨_, _, .line hbreak, hread⟩
  | none =>
      rw [hbreak] at hread
      cases hhead : c.head? with
      | none =>
          rw [hhead] at hread
          cases hread
          exact .inl ⟨.inl (List.head?_eq_none_iff.mp hhead), rfl, rfl⟩
      | some b =>
          obtain ⟨r, hrest⟩ := Cursor.exists_of_head? hhead
          rw [hhead] at hread
          cases hblank : isBlank b with
          | false =>
              simp only [hblank, Bool.not_false, if_true] at hread
              cases hread
              refine .inl ⟨.inr ?_, rfl, rfl⟩
              rw [hrest, isWordEnd, hblank, Cursor.isBreak_of_takeBreak?_eq_none hrest hbreak]
              rfl
          | true =>
              simp only [hblank, Bool.not_true, Bool.false_eq_true, if_false] at hread
              split at hread
              · exact .inr ⟨_, _, .blank hhead hblank, hread⟩
              next hbreaks =>
                split at hread
                · cases hread
                · have hne : c.rest ≠ [] := hrest ▸ List.cons_ne_nil b r
                  have hmore : g.breaks ≠ [] := fun hnil => hbreaks (by rw [hnil]; rfl)
                  exact .inr ⟨_, _, .indentation hne hmore, hread⟩

/-- A round takes at least one character. -/
theorem Gap.Round.length_lt {g g₁ : Gap} {e : Cursor} (h : Round g c g₁ e) :
    e.rest.length < c.rest.length := by
  cases h with
  | line hbreak => exact (Cursor.rest_of_takeBreak? hbreak).2
  | blank hhead =>
      obtain ⟨r, hrest⟩ := Cursor.exists_of_head? hhead
      exact Cursor.length_advance_lt (hrest ▸ List.cons_ne_nil _ r) (Nat.le_refl 1)
  | indentation hne => exact Cursor.length_advance_lt hne (Nat.le_refl 1)

/-- **Gaps are read locally**, with enough fuel for either text. -/
theorem Gap.agree_readFrom {indent m k : Nat} {g : Gap} (h : Kept t c₁ c₂)
    (h₁ : c₁.rest.length ≤ m) (h₂ : c₂.rest.length ≤ k) {g' : Gap} {d₁ : Cursor}
    (hread : readFrom indent m g c₁ = .ok (g', d₁)) :
    d₁.rest <:+ c₁.rest ∧
      ∃ d₂, readFrom indent k g c₂ = .ok (g', d₂) ∧ Kept t d₁ d₂ := by
  induction m generalizing k g c₁ c₂ with
  | zero =>
      have hnil : c₁.rest = [] := List.eq_nil_of_length_eq_zero (Nat.le_zero.mp h₁)
      rw [readFrom_of_nil indent _ g hnil] at hread
      cases hread
      exact ⟨List.suffix_refl _, c₂, readFrom_of_nil indent _ _ (h.rest_eq_nil hnil), h⟩
  | succ m ih =>
      by_cases hnil : c₁.rest = []
      · rw [readFrom_of_nil indent _ g hnil] at hread
        cases hread
        exact ⟨List.suffix_refl _, c₂, readFrom_of_nil indent _ _ (h.rest_eq_nil hnil), h⟩
      obtain ⟨k, rfl⟩ : ∃ n, k = n + 1 := Nat.exists_eq_succ_of_ne_zero fun hzero =>
        h.rest_ne_nil hnil (List.eq_nil_of_length_eq_zero (Nat.le_zero.mp (hzero ▸ h₂)))
      rw [readFrom] at hread ⊢
      rcases h.takeBreak? with ⟨hbreak₁, hbreak₂⟩ | ⟨b, e₁, e₂, hbreak₁, hbreak₂, he⟩
      · obtain ⟨b, hb⟩ := Cursor.exists_head? hnil
        obtain ⟨d, hd⟩ := Cursor.exists_head? (h.rest_ne_nil hnil)
        have hsame : isBlank d = isBlank b := by
          have hany := h.head?_isBlank
          rwa [hb, hd] at hany
        rw [hbreak₁, hb] at hread
        rw [hbreak₂, hd]
        simp only [hsame] at hread ⊢
        cases hblank : isBlank b with
        | false =>
            rw [hblank] at hread
            cases hread
            exact ⟨List.suffix_refl _, c₂, rfl, h⟩
        | true =>
            obtain ⟨hd', hnext⟩ := h.advance_blank hb hblank
            obtain rfl : d = b := Option.some.inj (hd.symm.trans hd')
            have hlt₁ := Cursor.length_advance_lt hnil (Nat.le_refl 1)
            have hlt₂ := Cursor.length_advance_lt (h.rest_ne_nil hnil) (Nat.le_refl 1)
            have hgo {e : Gap} (hread : readFrom indent m e (c₁.advance 1) = .ok (g', d₁)) :
                d₁.rest <:+ c₁.rest ∧
                  ∃ d₂, readFrom indent k e (c₂.advance 1) = .ok (g', d₂) ∧ Kept t d₁ d₂ := by
              obtain ⟨hsuffix, hrun⟩ := ih hnext (by omega) (k := k) (by omega) hread
              exact ⟨hsuffix.trans (c₁.rest_advance_suffix 1), hrun⟩
            rw [hblank] at hread
            by_cases hfirst : g.breaks.isEmpty = true
            · simp only [Bool.not_true, Bool.false_eq_true, if_false, if_pos hfirst] at hread ⊢
              exact hgo hread
            · by_cases htab : d = '\t' ∧ c₁.column < indent
              · simp only [Bool.not_true, Bool.false_eq_true, if_false, if_neg hfirst,
                  if_pos htab] at hread
                cases hread
              · simp only [Bool.not_true, Bool.false_eq_true, if_false, if_neg hfirst, h.column,
                  if_neg htab] at hread ⊢
                exact hgo hread
      · rw [hbreak₁] at hread
        rw [hbreak₂]
        obtain ⟨hsuffix₁, hlt₁⟩ := Cursor.rest_of_takeBreak? hbreak₁
        obtain ⟨hsuffix₂, hlt₂⟩ := Cursor.rest_of_takeBreak? hbreak₂
        obtain ⟨hsuffix, hsame⟩ := ih he.kept (by omega) (k := k) (by omega) hread
        exact ⟨hsuffix.trans hsuffix₁, hsame⟩

/-- A gap is read from what is left of the text. -/
theorem Gap.rest_readFrom_suffix {indent n : Nat} {g g' : Gap} {d : Cursor}
    (h : c.rest.length ≤ n) (hread : readFrom indent n g c = .ok (g', d)) : d.rest <:+ c.rest :=
  (agree_readFrom (within_over c).kept h h hread).1

theorem Gap.agree_read {indent : Nat} {g : Gap} (h : Kept t c₁ c₂) {g' : Gap} {d₁ : Cursor}
    (hread : g.read indent c₁ = .ok (g', d₁)) :
    d₁.rest <:+ c₁.rest ∧ ∃ d₂, g.read indent c₂ = .ok (g', d₂) ∧ Kept t d₁ d₂ :=
  agree_readFrom h (Nat.le_refl _) (Nat.le_refl _) hread

theorem Gap.rest_read_suffix {indent : Nat} {g g' : Gap} {d : Cursor}
    (hread : g.read indent c = .ok (g', d)) : d.rest <:+ c.rest :=
  rest_readFrom_suffix (Nat.le_refl _) hread

/-- Where a gap begins, something is read. -/
theorem Gap.length_rest_read_lt {indent : Nat} {g g' : Gap} {d : Cursor} (hne : c.rest ≠ [])
    (hend : isWordEnd c.rest = true) (hread : g.read indent c = .ok (g', d)) :
    d.rest.length < c.rest.length := by
  obtain ⟨b, r, hrest⟩ := List.exists_cons_of_ne_nil hne
  have hlength : c.rest.length = r.length + 1 := by rw [hrest, List.length_cons]
  rw [read, hlength] at hread
  rcases exists_of_readFrom_succ hread with ⟨hstop, -, -⟩ | ⟨g₁, e, hround, hread⟩
  · rw [hend] at hstop
    cases hstop.resolve_left hne
  · have hlt := hround.length_lt
    have hle := (rest_readFrom_suffix (by omega) hread).length_le
    omega

end RealmDirectory.Yaml
