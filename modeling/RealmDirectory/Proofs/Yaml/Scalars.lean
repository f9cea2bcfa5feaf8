import RealmDirectory.Proofs.Text.Steps
import RealmDirectory.Proofs.Yaml.Locality

/-!
# Scalars are read locally

Each way to write a scalar is read from left to right, with gaps between words or lines. A gap may
reach the place up to which two texts are the same; whoever reads on there gets past it.

## Main definitions

* `plainAfter`: what is read behind a word of a plain scalar.
* `QuotedRound`: what one round of quoted characters does.

## Main results

* `Kept.isMark`: marks between documents.
* `agree_readPlain`: scalars without quotes.
* `agree_readQuotedRun`: quoted characters, round by round.
* `agree_readQuoted`: scalars in quotes.
* `agree_readBlock`: blocks of lines.
-/

namespace RealmDirectory.Yaml

variable {t : Tails} {c₁ c₂ c : Cursor}

/-! ### Marks -/

theorem Cursor.isMark_eq (m : Char) (c : Cursor) :
    c.isMark m = (c.column == 0 && (c.head? == some m && ((c.advance 1).head? == some m &&
      (((c.advance 1).advance 1).head? == some m &&
        isWordEnd (((c.advance 1).advance 1).advance 1).rest)))) := by
  simp only [isMark, head?, advance]
  rcases c.rest with _ | ⟨a, _ | ⟨b, _ | ⟨d, r⟩⟩⟩ <;> simp [Bool.and_assoc]

/-- A mark is the same in both texts. -/
theorem Kept.isMark (h : Kept t c₁ c₂) {m : Char} (hm : isBlank m = false) :
    c₂.isMark m = c₁.isMark m := by
  rcases h.within_or with hwithin | ⟨-, ⟨hcolumn, -⟩, -⟩
  · have hnext {d₁ d₂ : Cursor} (hd : Within t d₁ d₂) {b₁ b₂ : Bool}
        (hb : Within t (d₁.advance 1) (d₂.advance 1) → b₂ = b₁) :
        (d₂.head? == some m && b₂) = (d₁.head? == some m && b₁) := by
      rw [hd.head?]
      by_cases hhead : d₁.head? = some m
      · rw [hb (hd.advance_one hhead hm)]
      · rw [beq_eq_false_iff_ne.mpr hhead, Bool.false_and, Bool.false_and]
    rw [Cursor.isMark_eq, Cursor.isMark_eq, h.column]
    exact congrArg _ (hnext hwithin fun h₁ => hnext h₁ fun h₂ => hnext h₂ Within.isWordEnd)
  · have hne : (c₁.column == 0) = false := beq_eq_false_iff_ne.mpr (by omega)
    rw [Cursor.isMark, Cursor.isMark, h.column, hne, Bool.false_and, Bool.false_and,
      Bool.false_and, Bool.false_and]

theorem Kept.isDocumentMark (h : Kept t c₁ c₂) : c₂.isDocumentMark = c₁.isDocumentMark := by
  rw [Cursor.isDocumentMark, Cursor.isDocumentMark, h.isMark (by decide), h.isMark (by decide)]

/-! ### Plain scalars -/

/-- Whether a word of a plain scalar is over in front of a character. -/
def endsWord (flow : Bool) (b : Char) (r : List Char) : Bool :=
  isBlank b || isBreak b || b == ':' && isWordEnd r || flow && isFlowMark b

/-- **A word is over or has one more character.** -/
theorem exists_of_plainWord_cons {flow : Bool} {b : Char} {r w : List Char}
    (h : plainWord flow (b :: r) = .ok w) :
    endsWord flow b r = true ∧ w = [] ∨
      endsWord flow b r = false ∧ ∃ w', plainWord flow r = .ok w' ∧ w = b :: w' := by
  rw [plainWord] at h
  by_cases hgap : (isBlank b || isBreak b) = true
  · rw [if_pos hgap] at h
    cases h
    exact .inl ⟨by rw [endsWord, hgap]; rfl, rfl⟩
  rw [if_neg hgap] at h
  split at h
  · cases h
  by_cases hcolon : (b == ':' && isWordEnd r) = true
  · rw [if_pos hcolon] at h
    cases h
    exact .inl ⟨by rw [endsWord, hcolon, Bool.or_true, Bool.true_or], rfl⟩
  rw [if_neg hcolon] at h
  by_cases hmark : (flow && isFlowMark b) = true
  · rw [if_pos hmark] at h
    cases h
    exact .inl ⟨by rw [endsWord, hmark, Bool.or_true], rfl⟩
  rw [if_neg hmark] at h
  obtain ⟨w', hw, rfl⟩ := exists_of_map_eq_ok h
  refine .inr ⟨?_, w', hw, rfl⟩
  rw [endsWord, Bool.of_not_eq_true hgap, Bool.of_not_eq_true hcolon, Bool.of_not_eq_true hmark]
  rfl

/-- A word of a plain scalar is the same in both texts. -/
theorem Within.plainWord {flow : Bool} {w : List Char} (h : Within t c₁ c₂)
    (hw : plainWord flow c₁.rest = .ok w) :
    plainWord flow c₂.rest = .ok w ∧ Within t (c₁.advance w.length) (c₂.advance w.length) := by
  generalize hrest : c₁.rest = s at hw
  induction s generalizing c₁ c₂ w with
  | nil =>
      cases hw
      rw [h.kept.rest_eq_nil hrest]
      exact ⟨rfl, h⟩
  | cons b r ih =>
      have hb : c₁.head? = some b := by rw [Cursor.head?, hrest]; rfl
      obtain ⟨r₂, hrest₂⟩ := Cursor.exists_of_head? (h.head?.trans hb)
      rw [hrest₂]
      rw [Yaml.plainWord] at hw ⊢
      by_cases hgap : (isBlank b || isBreak b) = true
      · rw [if_pos hgap] at hw ⊢
        cases hw
        exact ⟨rfl, h⟩
      have hnext := h.advance_one hb (Bool.or_eq_false_iff.mp (Bool.of_not_eq_true hgap)).1
      have hr : (c₁.advance 1).rest = r := by rw [Cursor.advance, hrest]; rfl
      have hr₂ : (c₂.advance 1).rest = r₂ := by rw [Cursor.advance, hrest₂]; rfl
      have hhead : r₂.head? = r.head? := by
        rw [← hr, ← hr₂]
        exact hnext.head?
      have hend : Yaml.isWordEnd r₂ = Yaml.isWordEnd r := by
        rw [← hr, ← hr₂]
        exact hnext.isWordEnd
      rw [if_neg hgap] at hw ⊢
      rw [hhead, hend]
      by_cases hfault : (b == ':' && flow && r.head?.any fun d => isFlowMark d || d == '?') = true
      · rw [if_pos hfault] at hw
        cases hw
      rw [if_neg hfault] at hw ⊢
      by_cases hcolon : (b == ':' && Yaml.isWordEnd r) = true
      · rw [if_pos hcolon] at hw ⊢
        cases hw
        exact ⟨rfl, h⟩
      rw [if_neg hcolon] at hw ⊢
      by_cases hmark : (flow && isFlowMark b) = true
      · rw [if_pos hmark] at hw ⊢
        cases hw
        exact ⟨rfl, h⟩
      rw [if_neg hmark] at hw ⊢
      obtain ⟨w', hread, rfl⟩ := exists_of_map_eq_ok hw
      obtain ⟨hsame, hkept⟩ := ih hnext hr hread
      rw [hr₂] at hsame
      rw [hsame]
      refine ⟨rfl, ?_⟩
      rwa [Cursor.advance_add, Cursor.advance_add, Nat.add_comm] at hkept

/-- Reads on behind a word of a plain scalar. -/
def plainAfter (flow : Bool) (indent fuel : Nat) (text : List Char) (gap : Gap) (c : Cursor) :
    Except Fault (List Char × Gap × Cursor) :=
  if c.rest.isEmpty || !isWordEnd c.rest then .ok (text, gap, c)
  else
    gap.read indent c >>= fun p =>
      if !flow && p.2.column < indent then .ok (text, p.1, p.2)
      else readPlainFrom flow indent fuel text p.1 p.2

/-- One round of reading a plain scalar. -/
theorem readPlainFrom_succ (flow : Bool) (indent fuel : Nat) (text : List Char) (gap : Gap)
    (c : Cursor) :
    readPlainFrom flow indent (fuel + 1) text gap c =
      if c.isDocumentMark || c.head? = some '#' then .ok (text, gap, c)
      else plainWord flow c.rest >>= fun word =>
        plainAfter flow indent fuel (if word.isEmpty then text else text ++ gap.fold ++ word)
          (if word.isEmpty then gap else {}) (c.advance word.length) := by
  rw [readPlainFrom]
  split
  · rfl
  · congr 1
    funext word
    cases word <;> rfl

/-- Two readings of a plain scalar, of which the first begins at a place and adds to some text: the
second one adds the same to any text, unless the first one gets past the place. -/
def PlainAgree (t : Tails) (c : Cursor) (text : List Char)
    (m₁ : Except Fault (List Char × Gap × Cursor))
    (m₂ : List Char → Except Fault (List Char × Gap × Cursor)) : Prop :=
  ∀ text₁ gap d₁, m₁ = .ok (text₁, gap, d₁) → d₁.rest <:+ c.rest ∧
    ∃ w, text₁ = text ++ w ∧ (Past t d₁ ∧ w ≠ [] ∨
      ∀ text₂, ∃ d₂, m₂ text₂ = .ok (text₂ ++ w, gap, d₂) ∧ Kept t d₁ d₂)

theorem Kept.isEmpty_rest (h : Kept t c₁ c₂) : c₂.rest.isEmpty = c₁.rest.isEmpty := by
  by_cases hnil : c₁.rest = []
  · rw [hnil, h.rest_eq_nil hnil]
  · rw [List.isEmpty_eq_false_iff.mpr hnil, List.isEmpty_eq_false_iff.mpr (h.rest_ne_nil hnil)]

/-- Whether a certain blank, line break or comment comes next is the same in both texts. -/
theorem Kept.head?_eq_some_iff (h : Kept t c₁ c₂) {b : Char}
    (hb : isBlank b = true ∨ isBreak b = true ∨ b = '#') :
    c₂.head? = some b ↔ c₁.head? = some b := by
  rcases h.within_or with hwithin | ⟨hx, -, r₁, d, r₂, h₁, h₂, hd⟩
  · rw [hwithin.head?]
  · have hne₁ : b ≠ '$' := by
      rintro rfl
      exact absurd hb (by decide)
    have hne₂ : b ≠ d := by
      rintro rfl
      rw [hd.1, hd.2.1] at hb
      simp [hd.2.2] at hb
    rw [Cursor.head?, Cursor.head?, hx.rest₁, hx.rest₂, h₁, h₂]
    exact ⟨fun heq => absurd (Option.some.inj heq).symm hne₂,
      fun heq => absurd (Option.some.inj heq).symm hne₁⟩

/-- Behind a word, a plain scalar goes on in the same way when that holds for all shorter rests. -/
theorem agree_plainAfter {flow : Bool} {indent m k : Nat} {text : List Char} {gap : Gap}
    (ih : ∀ {c₁ c₂ : Cursor} {gap : Gap}, Kept t c₁ c₂ → c₁.rest.length < m →
      c₂.rest.length < k → PlainAgree t c₁ text (readPlainFrom flow indent m text gap c₁)
        fun text₂ => readPlainFrom flow indent k text₂ gap c₂)
    (h : Within t c₁ c₂) (h₁ : c₁.rest.length ≤ m) (h₂ : c₂.rest.length ≤ k) :
    PlainAgree t c₁ text (plainAfter flow indent m text gap c₁)
      fun text₂ => plainAfter flow indent k text₂ gap c₂ := by
  intro text₁ gap' d₁ hread
  simp only [plainAfter, h.kept.isEmpty_rest, h.isWordEnd] at hread ⊢
  by_cases hstop : (c₁.rest.isEmpty || !isWordEnd c₁.rest) = true
  · simp only [if_pos hstop] at hread ⊢
    cases hread
    exact ⟨List.suffix_refl _, [], (List.append_nil _).symm, .inr fun text₂ =>
      ⟨c₂, by rw [List.append_nil], h.kept⟩⟩
  · simp only [if_neg hstop] at hread ⊢
    obtain ⟨⟨g, e₁⟩, hgap, hread⟩ := exists_of_bind_ok hread
    obtain ⟨hsuffix, e₂, hgap₂, he⟩ := Gap.agree_read h.kept hgap
    have hstop := Bool.or_eq_false_iff.mp (Bool.of_not_eq_true hstop)
    have hne : c₁.rest ≠ [] := List.isEmpty_eq_false_iff.mp hstop.1
    have hend : isWordEnd c₁.rest = true := by simpa using hstop.2
    have hlt₁ := Gap.length_rest_read_lt hne hend hgap
    have hlt₂ := Gap.length_rest_read_lt (h.kept.rest_ne_nil hne) (h.isWordEnd.trans hend) hgap₂
    simp only [hgap₂, ok_bind, he.column]
    by_cases hleft : (!flow && decide (e₁.column < indent)) = true
    · simp only [if_pos hleft] at hread ⊢
      cases hread
      exact ⟨hsuffix, [], (List.append_nil _).symm, .inr fun text₂ =>
        ⟨e₂, by rw [List.append_nil], he⟩⟩
    · simp only [if_neg hleft] at hread ⊢
      obtain ⟨hsuffix', hrun⟩ := ih he (by omega) (by omega) _ _ _ hread
      exact ⟨hsuffix'.trans hsuffix, hrun⟩

/-- A dollar sign belongs to a word. -/
theorem exists_plainWord_dollar {flow : Bool} {r w : List Char}
    (h : plainWord flow ('$' :: r) = .ok w) : ∃ w', w = '$' :: w' := by
  rcases exists_of_plainWord_cons h with ⟨hend, -⟩ | ⟨-, w', -, rfl⟩
  · have hgoes : endsWord flow '$' r = false := by cases flow <;> rfl
    rw [hgoes] at hend
    cases hend
  · exact ⟨w', rfl⟩

/-- **Plain scalars are read locally**, whatever was read before. -/
theorem agree_readPlainFrom {flow : Bool} {indent m k : Nat} {text : List Char} {gap : Gap}
    (h : Kept t c₁ c₂) (h₁ : c₁.rest.length < m) (h₂ : c₂.rest.length < k) :
    PlainAgree t c₁ text (readPlainFrom flow indent m text gap c₁)
      fun text₂ => readPlainFrom flow indent k text₂ gap c₂ := by
  induction m generalizing t c₁ c₂ k text gap with
  | zero => exact absurd h₁ (Nat.not_lt_zero _)
  | succ m ih =>
      obtain ⟨k, rfl⟩ : ∃ n, k = n + 1 :=
        Nat.exists_eq_succ_of_ne_zero (Nat.ne_zero_of_lt h₂)
      have h₁ : c₁.rest.length ≤ m := Nat.le_of_lt_succ h₁
      have h₂ : c₂.rest.length ≤ k := Nat.le_of_lt_succ h₂
      intro text₁ gap₁ d₁ hread
      rw [readPlainFrom_succ] at hread
      simp only [readPlainFrom_succ, h.isDocumentMark, h.head?_eq_some_iff (.inr (.inr rfl))]
      by_cases hstop : (c₁.isDocumentMark || decide (c₁.head? = some '#')) = true
      · rw [if_pos hstop] at hread
        cases hread
        exact ⟨List.suffix_refl _, [], (List.append_nil _).symm, .inr fun text₂ =>
          ⟨c₂, by rw [if_pos hstop, List.append_nil], h⟩⟩
      rw [if_neg hstop] at hread
      simp only [if_neg hstop]
      obtain ⟨word, hword, hread⟩ := exists_of_bind_ok hread
      have hrest : (c₁.advance word.length).rest <:+ c₁.rest := c₁.rest_advance_suffix _
      rcases h.within_or with hwithin | ⟨hx, -, r₁, b, r₂, ht₁, -⟩
      · obtain ⟨hword₂, hnext⟩ := hwithin.plainWord hword
        have hlt₂ : (c₂.advance word.length).rest.length ≤ c₂.rest.length :=
          (c₂.rest_advance_suffix _).length_le
        obtain ⟨hsuffix, w, rfl, hrun⟩ := agree_plainAfter (k := k) (fun hk h₁ h₂ => ih hk h₁ h₂)
          hnext (hrest.length_le.trans h₁) (hlt₂.trans h₂) _ _ _ hread
        refine ⟨hsuffix.trans hrest, ?_⟩
        simp only [hword₂, ok_bind]
        cases word with
        | nil => exact ⟨w, rfl, hrun⟩
        | cons a word =>
            refine ⟨gap.fold ++ (a :: word) ++ w, by simp, hrun.imp ?_ ?_⟩
            · exact fun hpast => ⟨hpast.1, by simp⟩
            · intro hsame text₂
              obtain ⟨d₂, hd₂, hkept⟩ := hsame (text₂ ++ gap.fold ++ (a :: word))
              exact ⟨d₂, by simpa using hd₂, hkept⟩
      · -- The place is reached, and the word goes past it.
        rw [hx.rest₁, List.nil_append, ht₁] at hword
        obtain ⟨word, rfl⟩ := exists_plainWord_dollar hword
        obtain ⟨hsuffix, w, rfl, -⟩ := agree_plainAfter (k := m)
          (fun hk h₁ h₂ => ih hk h₁ h₂) (within_over (c₁.advance ('$' :: word).length))
          (hrest.length_le.trans h₁) (hrest.length_le.trans h₁) _ _ _ hread
        refine ⟨hsuffix.trans hrest, gap.fold ++ ('$' :: word) ++ w, by simp, .inl ⟨?_, by simp⟩⟩
        refine Past.of_suffix ?_ hsuffix
        rw [Past, Cursor.advance, hx.rest₁, List.nil_append, ht₁, List.length_cons,
          List.drop_succ_cons]
        exact ⟨(List.drop_suffix _ _).trans (List.suffix_cons _ _),
          Nat.lt_succ_of_le (List.drop_suffix _ _).length_le⟩

theorem agree_readPlain {flow : Bool} {indent : Nat} (h : Kept t c₁ c₂) {text : List Char}
    {broken : Bool} {d₁ : Cursor} (hread : readPlain flow indent c₁ = .ok (text, broken, d₁)) :
    d₁.rest <:+ c₁.rest ∧
      (Past t d₁ ∨ ∃ d₂, readPlain flow indent c₂ = .ok (text, broken, d₂) ∧ Kept t d₁ d₂) := by
  rw [readPlain] at hread ⊢
  obtain ⟨⟨text, gap, d₁⟩, hread, heq⟩ := exists_of_bind_ok hread
  cases heq
  obtain ⟨hsuffix, w, rfl, hrun⟩ := agree_readPlainFrom (k := c₂.rest.length + 1) h
    (Nat.lt_succ_self _) (Nat.lt_succ_self _) _ _ _ hread
  refine ⟨hsuffix, hrun.imp And.left fun hsame => ?_⟩
  obtain ⟨d₂, hd₂ : readPlainFrom flow indent (c₂.rest.length + 1) [] {} c₂ = _, hkept⟩ := hsame []
  exact ⟨d₂, by rw [hd₂]; rfl, hkept⟩

/-! ### Quoted scalars -/

/-- The quote at the ends of a quoted scalar. -/
def quoteOf (double : Bool) : Char := if double then '"' else '\''

/-- What a run of quoted characters gives: it has gone on, behind an escaped line break at least by
one character, and otherwise up to a gap or the closing quote. -/
structure IsRun (double : Bool) (c : Cursor) (escaped : Bool) (d : Cursor) : Prop where
  suffix : d.rest <:+ c.rest
  shorter : escaped = true → d.rest.length < c.rest.length
  stopped : escaped = false → isWordEnd d.rest = true ∨ d.head? = some (quoteOf double)

/-- The run is over where a gap or the closing quote comes next. -/
theorem IsRun.here {double : Bool}
    (h : isWordEnd c.rest = true ∨ c.head? = some (quoteOf double)) : IsRun double c false c :=
  ⟨List.suffix_refl _, Bool.noConfusion, fun _ => h⟩

theorem IsRun.of_advance {double escaped : Bool} {d : Cursor} {n : Nat}
    (h : IsRun double (c.advance n) escaped d) : IsRun double c escaped d :=
  ⟨h.suffix.trans (c.rest_advance_suffix n),
    fun he => Nat.lt_of_lt_of_le (h.shorter he) (c.rest_advance_suffix n).length_le, h.stopped⟩

/-- A character is passed over that is in front of the place. -/
theorem Within.kept_advance_one (h : Within t c₁ c₂) {b : Char} (hb : c₁.head? = some b) :
    Kept t (c₁.advance 1) (c₂.advance 1) := by
  cases hblank : isBlank b with
  | true => exact (h.kept.advance_blank hb hblank).2
  | false => exact (h.advance_one hb hblank).kept

/-- What is past the first character of what a text has behind the place is past the place. -/
theorem Alike.past_advance (h : Alike t [] c₁ c₂) (hne : t.rest₁ ≠ []) {n : Nat} (hn : 1 ≤ n) :
    Past t (c₁.advance n) := by
  have hrest : c₁.rest = t.rest₁ := h.rest₁
  refine ⟨hrest ▸ c₁.rest_advance_suffix n, hrest ▸ Cursor.length_advance_lt ?_ hn⟩
  rwa [hrest]

/-- The escape of a character by its code is the same in both texts. -/
theorem Within.take_digits (h : Within t c₁ c₂) {n : Nat} {d : Char}
    (hcode : codeEscape? n (c₁.rest.take n) = some d) :
    codeEscape? n (c₂.rest.take n) = some d ∧ Within t (c₁.advance n) (c₂.advance n) := by
  let p (b : Char) : Bool := (Text.hexValue? b).isSome
  have hp : ∀ b, isBlank b = true → p b = false := by
    intro b hb
    simp only [isBlank, Bool.or_eq_true, beq_iff_eq] at hb
    rcases hb with rfl | rfl <;> decide
  have hcode' := hcode
  rw [codeEscape?] at hcode'
  by_cases hlength : (c₁.rest.take n).length < n
  · rw [if_pos hlength] at hcode'
    cases hcode'
  · rw [if_neg hlength] at hcode'
    obtain ⟨values, hvalues, -⟩ := Option.bind_eq_some_iff.mp hcode'
    have hall : ∀ b ∈ c₁.rest.take n, p b = true := fun b hb =>
      Option.isSome_iff_exists.mpr (exists_of_mem_of_mapM hvalues hb)
    have hn : n ≤ (c₁.rest.takeWhile p).length := by
      rw [← List.take_append_drop n c₁.rest, List.takeWhile_append_of_pos hall,
        List.length_append]
      omega
    obtain ⟨hsame, hwithin⟩ := h.takeWhile hp
    have htake {s : List Char} (hs : n ≤ (s.takeWhile p).length) :
        s.take n = (s.takeWhile p).take n := by
      conv_lhs => rw [← List.takeWhile_append_dropWhile (p := p) (l := s)]
      rw [List.take_append_of_le_length hs]
    rw [htake (hsame ▸ hn), hsame, ← htake hn]
    exact ⟨hcode, hwithin n hn⟩

/-! ### Rounds of quoted characters -/

/-- What one round of a run of quoted characters does. -/
inductive QuotedRound where
  /-- It stops in front of a gap or the closing quote. -/
  | stops
  /-- It passes over an escaped line break and stops. -/
  | breaks
  /-- It comes upon an escape that stands for nothing. -/
  | fails
  /-- It passes over some characters that stand for one. -/
  | takes (d : Char) (length : Nat)

/-- The number of characters that a round passes over, up to a line break. -/
def QuotedRound.length : QuotedRound → Nat
  | stops | fails => 0
  | breaks => 1
  | takes _ n => n

/-- The round that begins with a backslash in front of a text. -/
def escapeRound : List Char → QuotedRound
  | [] => .fails
  | e :: digits =>
      if isBreak e then .breaks
      else
        match letterEscape? e, codeLength? e with
        | some d, _ => .takes d 2
        | none, some n =>
            match codeEscape? n (digits.take n) with
            | some d => .takes d (2 + n)
            | none => .fails
        | none, none => .fails

/-- The round that begins with a text. -/
def quotedRound (double : Bool) : List Char → QuotedRound
  | [] => .stops
  | b :: r =>
      if isBlank b || isBreak b then .stops
      else if !double && b == '\'' && r.head? == some '\'' then .takes '\'' 2
      else if b == quoteOf double then .stops
      else if double && b == '\\' then escapeRound r
      else .takes b 1

/-- Goes on with a run as a round of it says. -/
def runAfter (double : Bool) (fuel : Nat) (text : List Char) (c : Cursor) :
    QuotedRound → Except Fault (List Char × Bool × Cursor)
  | .stops => .ok (text, false, c)
  | .breaks => .ok (text, true, (c.advance 1).skipBreak)
  | .fails => .error .badEscape
  | .takes d n => readQuotedRun double fuel (text ++ [d]) (c.advance n)

/-- A run is made of rounds. -/
theorem readQuotedRun_succ (double : Bool) (fuel : Nat) (text : List Char) (c : Cursor) :
    readQuotedRun double (fuel + 1) text c =
      runAfter double fuel text c (quotedRound double c.rest) := by
  rw [readQuotedRun]
  cases c.rest with
  | nil => rfl
  | cons b r =>
      cases r with
      | nil => grind [quotedRound, escapeRound, runAfter, quoteOf]
      | cons e digits => grind [quotedRound, escapeRound, runAfter, quoteOf]

/-- An escape breaks the line, stands for a character, or for nothing. -/
theorem escapeRound_cases (s : List Char) :
    escapeRound s = .breaks ∨ escapeRound s = .fails ∨
      ∃ d n, escapeRound s = .takes d (2 + n) := by
  cases s with
  | nil => exact .inr (.inl rfl)
  | cons e digits => grind [escapeRound]

/-- **What a round does**: it stops where the run is over, fails, or passes over something. -/
theorem quotedRound_cases (double : Bool) (s : List Char) :
    quotedRound double s = .stops ∧ (isWordEnd s = true ∨ s.head? = some (quoteOf double)) ∨
      quotedRound double s = .fails ∨ quotedRound double s = .breaks ∧ s ≠ [] ∨
      ∃ d n, quotedRound double s = .takes d (n + 1) ∧ s ≠ [] := by
  cases s with
  | nil => exact .inl ⟨rfl, .inl rfl⟩
  | cons b r =>
      have hescape := escapeRound_cases r
      grind [quotedRound, isWordEnd]

/-- The round of an escape is the same in both texts, unless it fails. -/
theorem Within.escapeRound (h : Within t (c₁.advance 1) (c₂.advance 1))
    (hround : escapeRound (c₁.advance 1).rest ≠ .fails) :
    escapeRound (c₂.advance 1).rest = escapeRound (c₁.advance 1).rest ∧
      Kept t (c₁.advance (escapeRound (c₁.advance 1).rest).length)
        (c₂.advance (escapeRound (c₁.advance 1).rest).length) := by
  cases hr : (c₁.advance 1).rest with
  | nil =>
      rw [hr] at hround
      exact absurd rfl hround
  | cons e digits =>
      have he : (c₁.advance 1).head? = some e := by rw [Cursor.head?, hr]; rfl
      obtain ⟨digits₂, hr₂⟩ := Cursor.exists_of_head? (h.head?.trans he)
      have hletter := h.kept_advance_one he
      have hcode {n : Nat} {d : Char} (hnone : letterEscape? e = none)
          (hd : codeEscape? n (digits.take n) = some d) :
          codeEscape? n (digits₂.take n) = some d ∧
            Kept t (c₁.advance (2 + n)) (c₂.advance (2 + n)) := by
        have hblank : isBlank e = false := Bool.eq_false_iff.mpr fun hblank => by
          simp only [isBlank, Bool.or_eq_true, beq_iff_eq] at hblank
          rcases hblank with rfl | rfl <;> cases hnone
        have hnext := h.advance_one he hblank
        have hdigits : ((c₁.advance 1).advance 1).rest = digits := by
          rw [Cursor.advance, hr, List.drop_one, List.tail_cons]
        have hdigits₂ : ((c₂.advance 1).advance 1).rest = digits₂ := by
          rw [Cursor.advance, hr₂, List.drop_one, List.tail_cons]
        obtain ⟨hsame, hkept⟩ := hnext.take_digits (hdigits.symm ▸ hd)
        simp only [Cursor.advance_add] at hkept
        exact ⟨hdigits₂ ▸ hsame, hkept.kept⟩
      rw [Cursor.advance_add, Cursor.advance_add] at hletter
      rw [hr] at hround
      rw [hr₂]
      have hkept := h.kept
      grind [Yaml.escapeRound, QuotedRound.length]

/-- A round is the same in both texts, unless it fails. -/
theorem Within.quotedRound {double : Bool} (h : Within t c₁ c₂)
    (hround : quotedRound double c₁.rest ≠ .fails) :
    quotedRound double c₂.rest = quotedRound double c₁.rest ∧
      Kept t (c₁.advance (quotedRound double c₁.rest).length)
        (c₂.advance (quotedRound double c₁.rest).length) := by
  have hstay : Kept t (c₁.advance 0) (c₂.advance 0) := h.kept
  cases hrest : c₁.rest with
  | nil =>
      rw [h.kept.rest_eq_nil hrest]
      exact ⟨rfl, hstay⟩
  | cons b r =>
      have hb : c₁.head? = some b := by rw [Cursor.head?, hrest]; rfl
      obtain ⟨r₂, hrest₂⟩ := Cursor.exists_of_head? (h.head?.trans hb)
      have hr : (c₁.advance 1).rest = r := by rw [Cursor.advance, hrest]; rfl
      have hr₂ : (c₂.advance 1).rest = r₂ := by rw [Cursor.advance, hrest₂]; rfl
      rw [hrest] at hround
      rw [hrest₂]
      rw [Yaml.quotedRound] at hround
      rw [Yaml.quotedRound, Yaml.quotedRound]
      by_cases hgap : (isBlank b || isBreak b) = true
      · rw [if_pos hgap, if_pos hgap]
        exact ⟨rfl, hstay⟩
      have hnext := h.advance_one hb (Bool.or_eq_false_iff.mp (Bool.of_not_eq_true hgap)).1
      have hhead : r₂.head? = r.head? := by
        rw [← hr, ← hr₂]
        exact hnext.head?
      have hquote (hsecond : r.head? = some '\'') :
          Kept t (c₁.advance 2) (c₂.advance 2) := by
        rw [← hr] at hsecond
        have hkept := (hnext.advance_one hsecond (by decide)).kept
        rwa [Cursor.advance_add, Cursor.advance_add] at hkept
      have hkept := hnext.kept
      have hescape := hnext.escapeRound
      rw [hr, hr₂] at hescape
      grind [QuotedRound.length]

/-- Nothing stops a run at a dollar sign. -/
theorem quotedRound_dollar (double : Bool) (r : List Char) :
    quotedRound double ('$' :: r) = .takes '$' 1 := by
  cases double <;> rfl

/-- **A run of quoted characters is the same in both texts.** -/
theorem agree_readQuotedRun {double escaped : Bool} {m k : Nat} {text text' : List Char}
    (h : Kept t c₁ c₂) (h₁ : c₁.rest.length < m) (h₂ : c₂.rest.length < k) {d₁ : Cursor}
    (hread : readQuotedRun double m text c₁ = .ok (text', escaped, d₁)) :
    IsRun double c₁ escaped d₁ ∧ (Past t d₁ ∨
      ∃ d₂, readQuotedRun double k text c₂ = .ok (text', escaped, d₂) ∧ Kept t d₁ d₂) := by
  induction m generalizing t c₁ c₂ k text with
  | zero => exact absurd h₁ (Nat.not_lt_zero _)
  | succ m ih =>
      obtain ⟨k, rfl⟩ : ∃ n, k = n + 1 :=
        Nat.exists_eq_succ_of_ne_zero (Nat.ne_zero_of_lt h₂)
      rw [readQuotedRun_succ] at hread ⊢
      rcases h.within_or with hwithin | ⟨hx, -, t₁, d, t₂, ht₁, -⟩
      · have hround : quotedRound double c₁.rest ≠ .fails := by
          intro hfails
          rw [hfails] at hread
          cases hread
        obtain ⟨hsame, hkept⟩ := hwithin.quotedRound hround
        rw [hsame]
        rcases quotedRound_cases double c₁.rest with
          ⟨heq, hstop⟩ | heq | ⟨heq, hne⟩ | ⟨d, n, heq, hne⟩
        · rw [heq] at hread ⊢
          cases hread
          exact ⟨.here hstop, .inr ⟨c₂, rfl, h⟩⟩
        · exact absurd heq hround
        · rw [heq] at hread hkept ⊢
          cases hread
          have hsuffix := (c₁.advance 1).rest_skipBreak_suffix
          have hlt := Cursor.length_advance_lt hne (Nat.le_refl 1)
          exact ⟨⟨hsuffix.trans (c₁.rest_advance_suffix 1),
            fun _ => Nat.lt_of_le_of_lt hsuffix.length_le hlt, Bool.noConfusion⟩,
            .inr ⟨_, rfl, hkept.skipBreak⟩⟩
        · rw [heq] at hread hkept ⊢
          change Kept t (c₁.advance (n + 1)) (c₂.advance (n + 1)) at hkept
          have hn : 1 ≤ n + 1 := Nat.le_add_left 1 n
          have hlt₁ := Cursor.length_advance_lt hne hn
          have hlt₂ := Cursor.length_advance_lt (h.rest_ne_nil hne) hn
          obtain ⟨hrun, hagree⟩ := ih hkept (by omega) (k := k) (by omega) hread
          exact ⟨hrun.of_advance, hagree⟩
      · -- The place is reached, and nothing stops the run there.
        have hrest : c₁.rest = '$' :: t₁ := by rw [hx.rest₁, ht₁, List.nil_append]
        have hpast : Past t (c₁.advance 1) :=
          hx.past_advance (ht₁ ▸ List.cons_ne_nil '$' t₁) (Nat.le_refl 1)
        have hlt := Cursor.length_advance_lt (hrest ▸ List.cons_ne_nil '$' t₁) (Nat.le_refl 1)
        rw [hrest, quotedRound_dollar] at hread
        obtain ⟨hrun, -⟩ := ih (within_over (c₁.advance 1)).kept (by omega) (k := m) (by omega)
          hread
        exact ⟨hrun.of_advance, .inl (hpast.of_suffix hrun.suffix)⟩

/-! ### Runs between gaps -/

/-- A quoted scalar does not end with the text. -/
theorem readQuotedFrom_of_nil {double : Bool} {n : Nat} {text : List Char} (h : c.rest = []) :
    readQuotedFrom double n text c = .error .openQuote := by
  cases n with
  | zero => rfl
  | succ n => simp [readQuotedFrom, Cursor.isDocumentMark, Cursor.isMark, h]

/-- Reads on behind a run of quoted characters. -/
def quotedAfter (double : Bool) (fuel : Nat) (text : List Char) (escaped : Bool) (c : Cursor) :
    Except Fault (List Char × Cursor) :=
  if !escaped && c.head? = some (quoteOf double) then .ok (text, c.advance 1)
  else
    Gap.read 0 (if escaped then { breaks := [[]] } else {}) c >>= fun p =>
      readQuotedFrom double fuel (text ++ p.1.fold) p.2

/-- One round of reading a quoted scalar. -/
theorem readQuotedFrom_succ (double : Bool) (fuel : Nat) (text : List Char) (c : Cursor) :
    readQuotedFrom double (fuel + 1) text c =
      if c.isDocumentMark then .error .documentMarkInQuote
      else if c.rest.isEmpty then .error .openQuote
      else readQuotedRun double (c.rest.length + 1) text c >>= fun p =>
        quotedAfter double fuel p.1 p.2.1 p.2.2 := rfl

/-- A run that no escaped line break ends stops in front of the place. -/
theorem IsRun.within {double : Bool} (hrun : IsRun double c false c₁) (h : Kept t c₁ c₂) :
    Within t c₁ c₂ := by
  rcases h.within_or with hwithin | ⟨hx, -, r₁, b, r₂, hr₁, -⟩
  · exact hwithin
  · have hrest : c₁.rest = '$' :: r₁ := by rw [hx.rest₁, hr₁, List.nil_append]
    rcases hrun.stopped rfl with hend | hquote
    · rw [hrest] at hend
      cases hend
    · rw [Cursor.head?, hrest] at hquote
      cases double <;> cases hquote

/-- Behind a run and a gap, less is left. -/
theorem IsRun.length_rest_read_lt {double escaped : Bool} {a d : Cursor} {g g' : Gap}
    (hrun : IsRun double c escaped d)
    (hopen : (!escaped && decide (d.head? = some (quoteOf double))) = false)
    (hne : d.rest ≠ []) (hread : g.read 0 d = .ok (g', a)) : a.rest.length < c.rest.length := by
  cases escaped with
  | true => exact Nat.lt_of_le_of_lt (Gap.rest_read_suffix hread).length_le (hrun.shorter rfl)
  | false =>
      have hquote : d.head? ≠ some (quoteOf double) := by simpa using hopen
      have hend := (hrun.stopped rfl).resolve_right hquote
      exact Nat.lt_of_lt_of_le (Gap.length_rest_read_lt hne hend hread) hrun.suffix.length_le

/-- Behind a run, a quoted scalar goes on in the same way when that holds for all shorter rests. -/
theorem agree_quotedAfter {double escaped : Bool} {m k : Nat} {text text' : List Char}
    {d₁ e₁ e₂ : Cursor}
    (ih : ∀ {a₁ a₂ : Cursor} {text : List Char}, Kept t a₁ a₂ → a₂.rest.length < k →
      readQuotedFrom double m text a₁ = .ok (text', d₁) → d₁.rest <:+ a₁.rest ∧ (Past t d₁ ∨
        ∃ d₂, readQuotedFrom double k text a₂ = .ok (text', d₂) ∧ Kept t d₁ d₂))
    (h : Kept t e₁ e₂) (hrun₁ : IsRun double c₁ escaped e₁) (hrun₂ : IsRun double c₂ escaped e₂)
    (hk : c₂.rest.length ≤ k) (hread : quotedAfter double m text escaped e₁ = .ok (text', d₁)) :
    d₁.rest <:+ e₁.rest ∧ (Past t d₁ ∨
      ∃ d₂, quotedAfter double k text escaped e₂ = .ok (text', d₂) ∧ Kept t d₁ d₂) := by
  have hsame : (!escaped && decide (e₂.head? = some (quoteOf double))) =
      (!escaped && decide (e₁.head? = some (quoteOf double))) := by
    cases escaped with
    | true => rfl
    | false => rw [(hrun₁.within h).head?]
  rw [quotedAfter] at hread ⊢
  rw [hsame]
  cases hclosed : !escaped && decide (e₁.head? = some (quoteOf double)) with
  | true =>
      obtain ⟨hescaped, hquote⟩ := Bool.and_eq_true_iff.mp hclosed
      obtain rfl : escaped = false := by simpa using hescaped
      rw [hclosed] at hread
      cases hread
      exact ⟨e₁.rest_advance_suffix 1, .inr ⟨_, rfl,
        (hrun₁.within h).kept_advance_one (of_decide_eq_true hquote)⟩⟩
  | false =>
      rw [hclosed] at hread hsame
      obtain ⟨⟨g, a₁⟩, hgap, hread⟩ := exists_of_bind_ok hread
      obtain ⟨hsuffix, a₂, hgap₂, ha⟩ := Gap.agree_read h hgap
      have hne : e₁.rest ≠ [] := by
        intro hnil
        rw [readQuotedFrom_of_nil (List.eq_nil_of_suffix_nil (hnil ▸ hsuffix))] at hread
        cases hread
      have hlt := hrun₂.length_rest_read_lt hsame (h.rest_ne_nil hne) hgap₂
      obtain ⟨hsuffix', hagree⟩ := ih ha (Nat.lt_of_lt_of_le hlt hk) hread
      refine ⟨hsuffix'.trans hsuffix, ?_⟩
      rw [if_neg Bool.false_ne_true, hgap₂, ok_bind]
      exact hagree

/-- **Quoted scalars are read locally.** -/
theorem agree_readQuotedFrom {double : Bool} {m k : Nat} {text text' : List Char}
    (h : Kept t c₁ c₂) (h₂ : c₂.rest.length < k) {d₁ : Cursor}
    (hread : readQuotedFrom double m text c₁ = .ok (text', d₁)) :
    d₁.rest <:+ c₁.rest ∧ (Past t d₁ ∨
      ∃ d₂, readQuotedFrom double k text c₂ = .ok (text', d₂) ∧ Kept t d₁ d₂) := by
  induction m generalizing t c₁ c₂ k text with
  | zero => cases hread
  | succ m ih =>
      obtain ⟨k, rfl⟩ : ∃ n, k = n + 1 :=
        Nat.exists_eq_succ_of_ne_zero (Nat.ne_zero_of_lt h₂)
      rw [readQuotedFrom_succ] at hread ⊢
      rw [h.isDocumentMark, h.isEmpty_rest]
      by_cases hmark : c₁.isDocumentMark = true
      · rw [if_pos hmark] at hread
        cases hread
      by_cases hempty : c₁.rest.isEmpty = true
      · rw [if_neg hmark, if_pos hempty] at hread
        cases hread
      rw [if_neg hmark, if_neg hempty] at hread ⊢
      obtain ⟨⟨text₁, escaped, e₁⟩, hrun, hread⟩ := exists_of_bind_ok hread
      obtain ⟨hrun₁, hsame⟩ := agree_readQuotedRun (k := c₂.rest.length + 1) h
        (Nat.lt_succ_self _) (Nat.lt_succ_self _) hrun
      rcases hsame with hpast | ⟨e₂, hruk, he⟩
      · have hsuffix := (agree_quotedAfter (fun ha hlt => ih ha hlt) (within_over e₁).kept hrun₁
          hrun₁ (Nat.le_refl _) hread).1
        exact ⟨hsuffix.trans hrun₁.suffix, .inl (hpast.of_suffix hsuffix)⟩
      · obtain ⟨hrun₂, -⟩ := agree_readQuotedRun (k := c₂.rest.length + 1) (within_over c₂).kept
          (Nat.lt_succ_self _) (Nat.lt_succ_self _) hruk
        obtain ⟨hsuffix, hagree⟩ := agree_quotedAfter (k := k) (fun ha hlt => ih ha hlt) he hrun₁
          hrun₂ (Nat.le_of_lt_succ h₂) hread
        rw [hruk, ok_bind]
        exact ⟨hsuffix.trans hrun₁.suffix, hagree⟩

theorem agree_readQuoted {double : Bool} {text : List Char}
    (h : Kept t (c₁.advance 1) (c₂.advance 1)) {d₁ : Cursor}
    (hread : readQuoted double c₁ = .ok (text, d₁)) :
    d₁.rest <:+ (c₁.advance 1).rest ∧
      (Past t d₁ ∨ ∃ d₂, readQuoted double c₂ = .ok (text, d₂) ∧ Kept t d₁ d₂) :=
  agree_readQuotedFrom h (Nat.lt_succ_of_le (c₂.rest_advance_suffix 1).length_le) hread

/-! ### Blocks of lines -/

/-- The header of a block is the same in both texts. -/
theorem Within.blockHeader (h : Within t c₁ c₂) :
    blockHeader c₂.rest = blockHeader c₁.rest ∧
      Kept t (c₁.advance (blockHeader c₁.rest).2.2) (c₂.advance (blockHeader c₁.rest).2.2) := by
  by_cases hnil : c₁.rest = []
  · rw [hnil, h.kept.rest_eq_nil hnil]
    exact ⟨rfl, h.kept⟩
  obtain ⟨a, r, hrest⟩ := List.exists_cons_of_ne_nil hnil
  have ha : c₁.head? = some a := by rw [Cursor.head?, hrest]; rfl
  obtain ⟨r₂, hrest₂⟩ := Cursor.exists_of_head? (h.head?.trans ha)
  rw [hrest, hrest₂]
  cases hblank : isBlank a with
  | true =>
      have hheader (s : List Char) : Yaml.blockHeader (a :: s) = (.clip, 0, 0) := by
        simp only [isBlank, Bool.or_eq_true, beq_iff_eq] at hblank
        rcases hblank with rfl | rfl <;> rfl
      rw [hheader, hheader]
      exact ⟨rfl, h.kept⟩
  | false =>
      have hnext := h.advance_one ha hblank
      have hr : (c₁.advance 1).rest = r := by rw [Cursor.advance, hrest]; rfl
      have hr₂ : (c₂.advance 1).rest = r₂ := by rw [Cursor.advance, hrest₂]; rfl
      have hhead : r₂.head? = r.head? := by
        rw [← hr, ← hr₂]
        exact hnext.head?
      have htwo {β : Type} {f : Char → Option β} {n : β} (hf : r.head?.bind f = some n) :
          Kept t (c₁.advance 2) (c₂.advance 2) := by
        obtain ⟨e, he, -⟩ := Option.bind_eq_some_iff.mp hf
        have hafter := hnext.kept_advance_one (b := e) (by rwa [Cursor.head?, hr])
        rwa [Cursor.advance_add, Cursor.advance_add] at hafter
      refine ⟨by simp only [Yaml.blockHeader, hhead], ?_⟩
      simp only [Yaml.blockHeader]
      split
      · split
        · next hdigit => exact htwo hdigit
        · exact hnext.kept
      · split
        · next hsign => exact htwo hsign
        · exact hnext.kept
      · exact h.kept

/-- Empty lines are read locally. -/
theorem agree_readBreaks {indent m k widest : Nat} {breaks : List Char}
    (h : Kept t c₁ c₂) (h₁ : c₁.rest.length < m) (h₂ : c₂.rest.length < k)
    {breaks' : List Char} {widest' : Nat} {d₁ : Cursor}
    (hread : readBreaks indent m widest breaks c₁ = .ok (breaks', widest', d₁)) :
    d₁.rest <:+ c₁.rest ∧
      ∃ d₂, readBreaks indent k widest breaks c₂ = .ok (breaks', widest', d₂) ∧
        Kept t d₁ d₂ := by
  induction m generalizing c₁ c₂ k widest breaks with
  | zero => exact absurd h₁ (Nat.not_lt_zero _)
  | succ m ih =>
      obtain ⟨k, rfl⟩ : ∃ n, k = n + 1 :=
        Nat.exists_eq_succ_of_ne_zero (Nat.ne_zero_of_lt h₂)
      obtain ⟨hspaces, hadvance⟩ := h.takeWhile (p := (· == ' ')) fun b hb => by
        rw [beq_iff_eq.mp hb]
        decide
      simp only [readBreaks, hspaces, h.column] at hread ⊢
      generalize hn : (if indent = 0 then (c₁.rest.takeWhile (· == ' ')).length
        else min (c₁.rest.takeWhile (· == ' ')).length (indent - c₁.column)) = n at hread ⊢
      have he : Kept t (c₁.advance n) (c₂.advance n) := hadvance n (by
        rw [← hn]
        split
        · exact Nat.le_refl _
        · exact Nat.min_le_left _ _)
      have hsuffix₁ := c₁.rest_advance_suffix n
      have hsuffix₂ := c₂.rest_advance_suffix n
      simp only [he.column, he.head?_eq_some_iff (b := '\t') (.inl (by decide))]
      split at hread
      · cases hread
      next htab =>
        rw [if_neg htab]
        rcases he.takeBreak? with ⟨hb₁, hb₂⟩ | ⟨b, e₁, e₂, hb₁, hb₂, hkept⟩
        · rw [hb₁] at hread
          rw [hb₂]
          cases hread
          exact ⟨hsuffix₁, _, rfl, he⟩
        · rw [hb₁] at hread
          rw [hb₂]
          obtain ⟨hs₁, hlt₁⟩ := Cursor.rest_of_takeBreak? hb₁
          obtain ⟨hs₂, hlt₂⟩ := Cursor.rest_of_takeBreak? hb₂
          have hle₁ := hsuffix₁.length_le
          have hle₂ := hsuffix₂.length_le
          obtain ⟨hsuffix, hsame⟩ := ih hkept.kept (by omega) (k := k) (by omega) hread
          exact ⟨hsuffix.trans (hs₁.trans hsuffix₁), hsame⟩

/-- A line break, if there is one, and the place behind it. -/
def Cursor.lineEnd (c : Cursor) : List Char × Cursor := c.takeBreak?.getD ([], c)

theorem Cursor.rest_lineEnd_suffix (c : Cursor) : c.lineEnd.2.rest <:+ c.rest := by
  rw [lineEnd]
  cases hbreak : c.takeBreak? with
  | none => exact List.suffix_refl _
  | some p => exact (rest_of_takeBreak? hbreak).1

theorem Kept.lineEnd (h : Kept t c₁ c₂) :
    c₂.lineEnd.1 = c₁.lineEnd.1 ∧ Kept t c₁.lineEnd.2 c₂.lineEnd.2 := by
  rw [Cursor.lineEnd, Cursor.lineEnd]
  rcases h.takeBreak? with ⟨h₁, h₂⟩ | ⟨b, d₁, d₂, h₁, h₂, hd⟩
  · rw [h₁, h₂]
    exact ⟨rfl, h⟩
  · rw [h₁, h₂]
    exact ⟨rfl, hd.kept⟩

/-- Behind a line there is less left. -/
theorem Cursor.length_rest_lineEnd_lt (h : c.rest ≠ []) :
    (c.skipWhile fun b => !isBreak b).lineEnd.2.rest.length < c.rest.length := by
  obtain ⟨b, r, hrest⟩ := List.exists_cons_of_ne_nil h
  cases hb : isBreak b with
  | true =>
      have hline : (c.skipWhile fun b => !isBreak b) = c := by
        rw [skipWhile, hrest, List.takeWhile_cons, hb]
        rfl
      rw [hline, lineEnd, takeBreak?_cons hrest, if_pos hb]
      split
      · exact length_advance_lt h (Nat.le_succ 1)
      · exact length_advance_lt h (Nat.le_refl 1)
  | false =>
      refine Nat.lt_of_le_of_lt (rest_lineEnd_suffix _).length_le (length_advance_lt h ?_)
      rw [hrest, List.takeWhile_cons, hb]
      exact Nat.succ_le_succ (Nat.zero_le _)

/-- Reads on in a block at the end of a line. -/
def linesAfter (folded : Bool) (indent fuel : Nat) (text : List Char) (led : Bool) (c : Cursor) :
    Except Fault (List Char × List Char × List Char × Cursor) :=
  readBreaks indent (c.lineEnd.2.rest.length + 1) 0 [] c.lineEnd.2 >>= fun q =>
    readLines folded indent fuel text c.lineEnd.1 q.1 led q.2.2

/-- What the lines of a block are joined with: `broken` is the break between them, and the flags
tell whether either of them begins with a blank. -/
def jointOf (folded : Bool) (broken empty : List Char) (led leads : Bool) : List Char :=
  if folded && broken == ['\n'] && !led && !leads then
    if empty.isEmpty then [' '] else []
  else broken

/-- One round of reading the lines of a block. -/
theorem readLines_succ (folded : Bool) (indent fuel : Nat) (text broken empty : List Char)
    (led : Bool) (c : Cursor) :
    readLines folded indent (fuel + 1) text broken empty led c =
      if c.column ≠ indent ∨ c.rest.isEmpty then .ok (text, broken, empty, c)
      else
        linesAfter folded indent fuel
          (text ++ jointOf folded broken empty led (c.head?.any isBlank) ++ empty ++
            c.rest.takeWhile fun b => !isBreak b)
          (c.head?.any isBlank) (c.skipWhile fun b => !isBreak b) := rfl

/-- **The lines of a block are read locally.** -/
theorem agree_readLines {folded led : Bool} {indent m k : Nat} {text broken empty : List Char}
    (h : Kept t c₁ c₂) (h₁ : c₁.rest.length < m) (h₂ : c₂.rest.length < k)
    {text' broken' empty' : List Char} {d₁ : Cursor}
    (hread : readLines folded indent m text broken empty led c₁ =
      .ok (text', broken', empty', d₁)) :
    d₁.rest <:+ c₁.rest ∧ (Past t d₁ ∨
      ∃ d₂, readLines folded indent k text broken empty led c₂ =
        .ok (text', broken', empty', d₂) ∧ Kept t d₁ d₂) := by
  induction m generalizing t c₁ c₂ k text broken empty led with
  | zero => exact absurd h₁ (Nat.not_lt_zero _)
  | succ m ih =>
      obtain ⟨k, rfl⟩ : ∃ n, k = n + 1 :=
        Nat.exists_eq_succ_of_ne_zero (Nat.ne_zero_of_lt h₂)
      rw [readLines_succ] at hread ⊢
      simp only [h.column, h.isEmpty_rest, h.head?_isBlank]
      by_cases hstop : c₁.column ≠ indent ∨ c₁.rest.isEmpty = true
      · rw [if_pos hstop] at hread ⊢
        cases hread
        exact ⟨List.suffix_refl _, .inr ⟨c₂, rfl, h⟩⟩
      rw [if_neg hstop] at hread ⊢
      have hne : c₁.rest ≠ [] := fun hnil => hstop (.inr (by rw [hnil]; rfl))
      have hline := c₁.rest_skipWhile_suffix fun b => !isBreak b
      have hlt₁ := Cursor.length_rest_lineEnd_lt hne
      have hlt₂ := Cursor.length_rest_lineEnd_lt (h.rest_ne_nil hne)
      simp only [linesAfter] at hread ⊢
      obtain ⟨⟨empty₁, widest, a₁⟩, hbreaks, hread⟩ := exists_of_bind_ok hread
      have hunary := agree_readBreaks (k := c₁.rest.length + 1) (within_over _).kept
        (Nat.lt_succ_self _) (by omega) hbreaks
      have hle₁ := hunary.1.length_le
      have hsuffix : d₁.rest <:+ a₁.rest :=
        (ih (within_over a₁).kept (by omega) (Nat.lt_succ_self _) hread).1
      have hto : d₁.rest <:+ (c₁.skipWhile fun b => !isBreak b).rest :=
        hsuffix.trans (hunary.1.trans (Cursor.rest_lineEnd_suffix _))
      refine ⟨hto.trans hline, ?_⟩
      rcases h.takeLine with hpast | ⟨hsame, hkept⟩
      · exact .inl (hpast.of_suffix hto)
      obtain ⟨hbreak, hkept⟩ := hkept.lineEnd
      obtain ⟨-, a₂, hbreaks₂, ha⟩ := agree_readBreaks
        (k := (c₂.skipWhile fun b => !isBreak b).lineEnd.2.rest.length + 1) hkept
        (Nat.lt_succ_self _) (Nat.lt_succ_self _) hbreaks
      have hle₂ := (agree_readBreaks (within_over _).kept (Nat.lt_succ_self _)
        (Nat.lt_succ_self _) hbreaks₂).1.length_le
      rw [hsame, hbreak, hbreaks₂, ok_bind]
      exact (ih ha (by omega) (by omega) hread).2

/-- The text of a block, with the line breaks at its end. -/
def Chomping.finish : Chomping → List Char → List Char → List Char → List Char
  | strip, text, _, _ => text
  | clip, text, broken, _ => text ++ broken
  | keep, text, broken, empty => text ++ broken ++ empty

/-- Reads a block behind its header. -/
def blockAfter (folded : Bool) (least : Nat) (chomping : Chomping) (given : Nat) (c : Cursor) :
    Except Fault (List Char × Cursor) :=
  let indent := if given = 0 then 0 else least - 1 + given
  readBreaks indent (c.rest.length + 1) 0 [] c >>= fun q =>
    readLines folded (if indent = 0 then max q.2.1 (max least 1) else indent)
      (q.2.2.rest.length + 1) [] [] q.1 false q.2.2 >>= fun l =>
        .ok (chomping.finish l.1 l.2.1 l.2.2.1, l.2.2.2)

/-- The place behind the header of a block, up to the end of its line. -/
def headerEnd (c : Cursor) : Cursor :=
  ((c.advance (blockHeader c.rest).2.2).skipWhile isBlank).skipComment

theorem readBlock_eq (folded : Bool) (least : Nat) (c : Cursor) :
    readBlock folded least c =
      if !isLineEnd (headerEnd (c.advance 1)).rest then .error .badBlockHeader
      else
        blockAfter folded least (blockHeader (c.advance 1).rest).1
          (blockHeader (c.advance 1).rest).2.1 (headerEnd (c.advance 1)).skipBreak := by
  rw [readBlock]
  simp only [headerEnd, blockAfter]
  refine if_congr Iff.rfl rfl ?_
  congr 1
  funext q
  congr 1
  funext l
  cases (blockHeader (c.advance 1).rest).1 <;> rfl

theorem agree_blockAfter {folded : Bool} {least given : Nat} {chomping : Chomping}
    {text : List Char} (h : Kept t c₁ c₂) {d₁ : Cursor}
    (hread : blockAfter folded least chomping given c₁ = .ok (text, d₁)) :
    d₁.rest <:+ c₁.rest ∧ (Past t d₁ ∨
      ∃ d₂, blockAfter folded least chomping given c₂ = .ok (text, d₂) ∧ Kept t d₁ d₂) := by
  simp only [blockAfter] at hread ⊢
  obtain ⟨⟨empty, widest, a₁⟩, hbreaks, hread⟩ := exists_of_bind_ok hread
  obtain ⟨⟨text, broken, empty', d₁⟩, hlines, heq⟩ := exists_of_bind_ok hread
  cases heq
  obtain ⟨hsuffix, a₂, hbreaks₂, ha⟩ := agree_readBreaks (k := c₂.rest.length + 1) h
    (Nat.lt_succ_self _) (Nat.lt_succ_self _) hbreaks
  obtain ⟨hsuffix', hsame⟩ := agree_readLines (k := a₂.rest.length + 1) ha
    (Nat.lt_succ_self _) (Nat.lt_succ_self _) hlines
  refine ⟨hsuffix'.trans hsuffix, hsame.imp_right ?_⟩
  rintro ⟨d₂, hlines₂, hd⟩
  rw [hbreaks₂, ok_bind, hlines₂]
  exact ⟨d₂, rfl, hd⟩

theorem Kept.isLineEnd (h : Kept t c₁ c₂) : isLineEnd c₂.rest = isLineEnd c₁.rest := by
  rw [isLineEnd_eq_head?, isLineEnd_eq_head?]
  rcases h.within_or with hwithin | ⟨hx, -, r₁, b, r₂, h₁, h₂, -, hb, -⟩
  · exact congrArg (Option.all _) hwithin.head?
  · rw [hx.rest₁, hx.rest₂, h₁, h₂]
    exact hb

/-- **Blocks are read locally.** -/
theorem agree_readBlock {folded : Bool} {least : Nat} {text : List Char}
    (h : Within t (c₁.advance 1) (c₂.advance 1)) {d₁ : Cursor}
    (hread : readBlock folded least c₁ = .ok (text, d₁)) :
    d₁.rest <:+ (c₁.advance 1).rest ∧
      (Past t d₁ ∨ ∃ d₂, readBlock folded least c₂ = .ok (text, d₂) ∧ Kept t d₁ d₂) := by
  rw [readBlock_eq] at hread ⊢
  split at hread
  · cases hread
  next hend =>
    obtain ⟨hheader, hkept⟩ := h.blockHeader
    have hblanks : Kept t _ _ := hkept.skipWhile (p := isBlank) fun _ => id
    have hunary := (agree_blockAfter (within_over _).kept hread).1
    have hto : d₁.rest <:+ (headerEnd (c₁.advance 1)).rest :=
      hunary.trans (Cursor.rest_skipBreak_suffix _)
    refine ⟨hto.trans ((Cursor.rest_skipComment_suffix _).trans
      ((Cursor.rest_skipWhile_suffix _ _).trans (Cursor.rest_advance_suffix _ _))), ?_⟩
    have hhead : Past t (headerEnd (c₁.advance 1)) ∨
        Kept t (headerEnd (c₁.advance 1)) (headerEnd (c₂.advance 1)) := by
      rw [headerEnd, headerEnd, hheader]
      exact hblanks.skipComment
    rcases hhead with hpast | hhead
    · exact .inl (hpast.of_suffix hto)
    · rw [hhead.isLineEnd, if_neg hend, hheader]
      exact (agree_blockAfter hhead.skipBreak hread).2

end RealmDirectory.Yaml
