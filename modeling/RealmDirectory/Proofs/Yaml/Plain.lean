import RealmDirectory.Proofs.Yaml.Scanning

/-!
# Plain scalars on one line

Some texts are plain scalars as they are: a reader that comes upon one of them in front of the end
of a line reads exactly this text, word by word, and goes on behind it no matter which text it was.
And a plain scalar whose text has no gap is what the reader stands in front of.

## Main definitions

* `staysPlain`, `IsPlainText`: the texts that are plain scalars on one line.
* `endsLine`: nothing but blanks and a comment is left of a line.

## Main results

* `prefix_of_readPlain`: plain scalars without gaps.
* `readPlainFrom_append`: texts that are plain scalars are read word by word.
* `plainAfter_endsLine`: what comes behind does not depend on the text.
-/

namespace RealmDirectory.Yaml

open Lexer

variable {c c₁ c₂ d : Cursor}

/-! ### Plain scalars without gaps -/

/-- Whether a character belongs to a gap. -/
def isGapChar (b : Char) : Bool := isBlank b || isBreak b

/-- A gap that holds something. -/
structure Gap.IsGap (g : Gap) : Prop where
  nonempty : g.blanks ≠ [] ∨ g.breaks ≠ []
  blanks : ∀ b ∈ g.blanks, isGapChar b = true
  breaks : ∀ s ∈ g.breaks, s ≠ [] ∧ ∀ b ∈ s, isGapChar b = true

/-- A gap stands for a text that still shows it. -/
theorem Gap.IsGap.exists_mem_fold {g : Gap} (h : g.IsGap) : ∃ b ∈ g.fold, isGapChar b = true := by
  have hbreak {s : List Char} (hs : s ∈ g.breaks) : ∃ b ∈ s, isGapChar b = true := by
    obtain ⟨hne, hall⟩ := h.breaks s hs
    obtain ⟨b, r, rfl⟩ := List.exists_cons_of_ne_nil hne
    exact ⟨b, List.mem_cons_self, hall b List.mem_cons_self⟩
  rw [fold]
  cases hbreaks : g.breaks with
  | nil =>
      obtain ⟨b, r, hb⟩ := List.exists_cons_of_ne_nil (h.nonempty.resolve_right (by simp [hbreaks]))
      have hmem : b ∈ g.blanks := hb ▸ List.mem_cons_self
      exact ⟨b, hmem, h.blanks b hmem⟩
  | cons s more =>
      rw [hbreaks] at hbreak
      obtain ⟨b, hb, hgap⟩ := hbreak List.mem_cons_self
      simp only
      split
      · split
        · exact ⟨' ', List.mem_singleton_self _, by decide⟩
        next hmore =>
          obtain ⟨s', more', rfl⟩ := List.exists_cons_of_ne_nil (by simpa using hmore : more ≠ [])
          obtain ⟨b', hb', hgap'⟩ := hbreak (List.mem_cons_of_mem _ List.mem_cons_self)
          exact ⟨b', List.mem_flatten.mpr ⟨s', List.mem_cons_self, hb'⟩, hgap'⟩
      · exact ⟨b, List.mem_append_left _ hb, hgap⟩

theorem Cursor.isGapChar_of_takeBreak? {s : List Char} (h : c.takeBreak? = some (s, d)) :
    s ≠ [] ∧ ∀ b ∈ s, isGapChar b = true := by
  obtain ⟨-, n, b, -, rfl, hbreak⟩ := exists_of_takeBreak? h
  refine ⟨List.cons_ne_nil b [], fun a ha => ?_⟩
  rw [List.mem_singleton.mp ha, isGapChar, hbreak, Bool.or_true]

/-- What a round makes of a gap, or of nothing, is a gap. -/
theorem Gap.Round.isGap {g g₁ : Gap} {e : Cursor} (h : Round g c g₁ e) (hg : g.IsGap ∨ g = {}) :
    g₁.IsGap := by
  have hblanks : ∀ b ∈ g.blanks, isGapChar b = true := by
    rcases hg with hg | rfl
    · exact hg.blanks
    · exact fun b hb => (by cases hb)
  have hbreaks : ∀ s ∈ g.breaks, s ≠ [] ∧ ∀ b ∈ s, isGapChar b = true := by
    rcases hg with hg | rfl
    · exact hg.breaks
    · exact fun b hb => (by cases hb)
  cases h with
  | line hbreak =>
      refine ⟨.inr (by simp), fun b hb => (by cases hb), ?_⟩
      exact List.forall_mem_append.mpr ⟨hbreaks,
        List.forall_mem_singleton.mpr (Cursor.isGapChar_of_takeBreak? hbreak)⟩
  | @blank b hhead hblank =>
      have hb : isGapChar b = true := by
        rw [isGapChar, hblank]
        rfl
      exact ⟨.inl (by simp), List.forall_mem_append.mpr ⟨hblanks,
        List.forall_mem_singleton.mpr hb⟩, hbreaks⟩
  | indentation hne hmore => exact ⟨.inr hmore, hblanks, hbreaks⟩

/-- Reading on in a gap leaves it one, and what is read at the start of one makes it one. -/
theorem Gap.isGap_of_readFrom {indent n : Nat} {g g' : Gap}
    (hg : g.IsGap ∨ g = {} ∧ n ≠ 0 ∧ c.rest ≠ [] ∧ isWordEnd c.rest = true)
    (hread : readFrom indent n g c = .ok (g', d)) : g'.IsGap := by
  induction n generalizing g c with
  | zero =>
      cases hread
      exact hg.resolve_right fun h => h.2.1 rfl
  | succ n ih =>
      rcases exists_of_readFrom_succ hread with ⟨hstop, rfl, rfl⟩ | ⟨g₁, e, hround, hread⟩
      · refine hg.resolve_right fun ⟨_, _, hne, hend⟩ => ?_
        rw [hend] at hstop
        cases hstop.resolve_left hne
      · exact ih (.inl (hround.isGap (hg.imp_right And.left))) hread

/-- What is read behind a gap shows the gap, unless it is nothing. -/
theorem exists_of_readPlainFrom {flow : Bool} {indent n : Nat} {text text' : List Char}
    {g g' : Gap} (hg : g.IsGap) (hn : c.rest.length < n)
    (hread : readPlainFrom flow indent n text g c = .ok (text', g', d)) :
    text' = text ∨ ∃ b ∈ text', isGapChar b = true := by
  induction n generalizing c g with
  | zero => exact absurd hn (Nat.not_lt_zero _)
  | succ n ih =>
      have hn : c.rest.length ≤ n := Nat.le_of_lt_succ hn
      rw [readPlainFrom_succ] at hread
      split at hread
      · cases hread
        exact .inl rfl
      obtain ⟨word, hword, hread⟩ := exists_of_bind_ok hread
      cases word with
      | cons a word =>
          obtain ⟨-, w, rfl⟩ :=
            exists_of_plainAfter ((c.rest_advance_suffix _).length_le.trans hn) hread
          obtain ⟨b, hb, hgap⟩ := hg.exists_mem_fold
          exact .inr ⟨b, by simp [hb], hgap⟩
      | nil =>
          simp only [List.isEmpty_nil, if_true, List.length_nil, Cursor.advance_zero,
            plainAfter] at hread
          split at hread
          · cases hread
            exact .inl rfl
          next hstop =>
            obtain ⟨hne, hend⟩ := Bool.or_eq_false_iff.mp (Bool.of_not_eq_true hstop)
            obtain ⟨⟨g₁, e⟩, hgap, hread⟩ := exists_of_bind_ok hread
            have hlt := Gap.length_rest_read_lt (List.isEmpty_eq_false_iff.mp hne)
              (by simpa using hend) hgap
            simp only at hread
            split at hread
            · cases hread
              exact .inl rfl
            · exact ih (Gap.isGap_of_readFrom (.inl hg) hgap) (by omega) hread

theorem plainWord_prefix {flow : Bool} {s w : List Char} (h : plainWord flow s = .ok w) :
    w <+: s := by
  induction s generalizing w with
  | nil =>
      cases h
      exact List.prefix_refl _
  | cons b r ih =>
      rcases exists_of_plainWord_cons h with ⟨-, rfl⟩ | ⟨-, w', hread, rfl⟩
      · exact List.nil_prefix
      · exact List.prefix_cons_inj b |>.mpr (ih hread)

/-- **A plain scalar without gaps** is what the reader stands in front of. -/
theorem prefix_of_readPlain {flow broken : Bool} {indent : Nat} {text : List Char}
    (h : startsPlain flow c = true) (hmark : c.isDocumentMark = false)
    (hread : readPlain flow indent c = .ok (text, broken, d))
    (hsolid : ∀ b ∈ text, isGapChar b = false) : text <+: c.rest := by
  obtain ⟨w, g, hne, hword, -, hread⟩ := exists_word_of_readPlain h hmark hread
  have htext : text = w ∨ ∃ b ∈ text, isGapChar b = true := by
    have hle := (c.rest_advance_suffix w.length).length_le
    rw [plainAfter] at hread
    split at hread
    · cases hread
      exact .inl rfl
    next hstop =>
      obtain ⟨hnil, hend⟩ := Bool.or_eq_false_iff.mp (Bool.of_not_eq_true hstop)
      have hend : isWordEnd (c.advance w.length).rest = true := by simpa using hend
      have hnil := List.isEmpty_eq_false_iff.mp hnil
      obtain ⟨⟨g₁, e⟩, hgap, hread⟩ := exists_of_bind_ok hread
      have hlt := Gap.length_rest_read_lt hnil hend hgap
      simp only at hread
      split at hread
      · cases hread
        exact .inl rfl
      · exact exists_of_readPlainFrom (Gap.isGap_of_readFrom (.inr ⟨rfl,
          fun hzero => hnil (List.eq_nil_of_length_eq_zero hzero), hnil, hend⟩) hgap)
          (by omega) hread
  rcases htext with rfl | ⟨b, hb, hgap⟩
  · exact plainWord_prefix hword
  · rw [hsolid b hb] at hgap
    cases hgap

/-! ### Texts that are plain scalars -/

/-- Whether a text goes on as a plain scalar on one line: nowhere a line break, a colon in front of
a gap or at the end, or a blank in front of a number sign or at the end. -/
def staysPlain : List Char → Bool
  | [] => true
  | c :: r =>
      !isBreak c && !(c == ':' && isWordEnd r) &&
        !(isBlank c && (r.isEmpty || r.head? == some '#')) && staysPlain r

/-- A text that is a plain scalar on one line. -/
structure IsPlainText (v : List Char) : Prop where
  /-- Each character may stand in a document. -/
  allowed : v.all isAllowed = true
  /-- A plain scalar may begin with it. -/
  begins : startsPlain false { rest := v } = true
  /-- A dash alone begins an entry. -/
  ne_dash : v ≠ ['-']
  stays : staysPlain v = true

/-- Whether nothing but blanks and a comment is left of a line. -/
def endsLine (y : List Char) : Bool :=
  isLineEnd (y.dropWhile isBlank) ||
    ((y.dropWhile isBlank).head? == some '#' && y.head? != some '#')

theorem isWordEnd_of_endsLine {y : List Char} (h : endsLine y = true) : isWordEnd y = true := by
  cases y with
  | nil => rfl
  | cons b y =>
      rw [isWordEnd]
      cases hblank : isBlank b with
      | true => rfl
      | false =>
          simpa [endsLine, hblank, isLineEnd] using h

variable {v y : List Char}

theorem staysPlain_cons {b : Char} {r : List Char} (h : staysPlain (b :: r) = true) :
    isBreak b = false ∧ (b = ':' → isWordEnd r = false) ∧
      (isBlank b = true → r ≠ [] ∧ r.head? ≠ some '#') ∧ staysPlain r = true := by
  simp only [staysPlain, Bool.and_eq_true, Bool.not_eq_true', Bool.and_eq_false_imp,
    beq_iff_eq, Bool.or_eq_false_iff, List.isEmpty_eq_false_iff] at h
  obtain ⟨⟨⟨hbreak, hcolon⟩, hblank⟩, hrest⟩ := h
  exact ⟨hbreak, hcolon, fun hb => ⟨(hblank hb).1, by simpa using (hblank hb).2⟩, hrest⟩

theorem staysPlain_append {u : List Char} (h : staysPlain (u ++ v) = true) :
    staysPlain v = true := by
  induction u with
  | nil => exact h
  | cons b u ih => exact ih (staysPlain_cons h).2.2.2

theorem isWordEnd_append {r : List Char} (hr : r ≠ []) (y : List Char) :
    isWordEnd (r ++ y) = isWordEnd r := by
  obtain ⟨b, r, rfl⟩ := List.exists_cons_of_ne_nil hr
  rfl

/-- The first word of such a text is read whatever follows behind a gap. -/
theorem plainWord_append (h : staysPlain v = true) (hy : isWordEnd y = true) :
    plainWord false (v ++ y) = .ok (v.takeWhile fun b => !isBlank b) := by
  induction v with
  | nil =>
      cases y with
      | nil => rfl
      | cons b y =>
          rw [isWordEnd] at hy
          rw [List.nil_append, plainWord, if_pos hy]
          rfl
  | cons b r ih =>
      obtain ⟨hbreak, hcolon, -, hr⟩ := staysPlain_cons h
      rw [List.cons_append, plainWord, hbreak, Bool.or_false, List.takeWhile_cons]
      cases hblank : isBlank b with
      | true => rfl
      | false =>
          have hend : (b == ':' && isWordEnd (r ++ y)) = false := by
            refine Bool.and_eq_false_imp.mpr fun hb => ?_
            have hend := hcolon (beq_iff_eq.mp hb)
            rw [isWordEnd_append, hend]
            rintro rfl
            cases hend
          simp only [Bool.and_false, Bool.false_and, hend, ih hr, Bool.false_eq_true, if_false,
            Bool.not_false, if_true]
          rfl

/-- Blanks are read one by one. -/
theorem Gap.readFrom_blanks {indent n : Nat} {blanks u : List Char}
    (hblanks : ∀ b ∈ blanks, isBlank b = true) (hrest : c.rest = blanks ++ y) :
    readFrom indent (blanks.length + n) { blanks := u } c =
      readFrom indent n { blanks := u ++ blanks } (c.advance blanks.length) := by
  induction blanks generalizing c u with
  | nil => simp
  | cons b blanks ih =>
      have hb := hblanks b List.mem_cons_self
      have hbreak : isBreak b = false := by
        refine Bool.eq_false_iff.mpr fun hbreak => ?_
        rw [isBlank_of_isBreak hbreak] at hb
        cases hb
      have hhead : c.head? = some b := by rw [Cursor.head?, hrest]; rfl
      have hnext : (c.advance 1).rest = blanks ++ y := by rw [Cursor.advance, hrest]; rfl
      have hlength : (b :: blanks).length + n = blanks.length + n + 1 := by
        rw [List.length_cons]
        omega
      rw [hlength, readFrom, Cursor.takeBreak?_of_isBreak_eq_false hrest hbreak, hhead]
      simp only [hb, Bool.not_true, Bool.false_eq_true, if_false, List.isEmpty_nil, if_true]
      rw [ih (fun d hd => hblanks d (List.mem_cons_of_mem b hd)) hnext, Cursor.advance_add,
        List.append_assoc, List.singleton_append, List.length_cons, Nat.add_comm 1]

theorem Gap.read_blanks {indent : Nat} {blanks : List Char}
    (hblanks : ∀ b ∈ blanks, isBlank b = true) (hrest : c.rest = blanks ++ y) :
    read indent {} c =
      readFrom indent y.length { blanks := blanks } (c.advance blanks.length) := by
  rw [read, hrest, List.length_append, readFrom_blanks hblanks hrest, List.nil_append]

/-- A gap ends in front of a word. -/
theorem Gap.readFrom_of_isWordEnd_eq_false {indent n : Nat} {g : Gap}
    (h : isWordEnd c.rest = false) : readFrom indent n g c = .ok (g, c) := by
  cases n with
  | zero => rfl
  | succ n =>
      obtain ⟨b, r, hrest⟩ := List.exists_cons_of_ne_nil (show c.rest ≠ [] from fun hnil => by
        rw [hnil] at h
        cases h)
      have hhead : c.head? = some b := by rw [Cursor.head?, hrest]; rfl
      rw [hrest, isWordEnd, Bool.or_eq_false_iff] at h
      rw [readFrom, Cursor.takeBreak?_of_isBreak_eq_false hrest h.2, hhead]
      simp only [h.1, Bool.not_false, if_true]

/-- Whether a word that no comment hides comes first. -/
def startsWord (v : List Char) : Bool := !isWordEnd v && v.head? != some '#'

theorem isDocumentMark_of_column (h : 1 ≤ c.column) : c.isDocumentMark = false := by
  have hne : (c.column == 0) = false := beq_eq_false_iff_ne.mpr (by omega)
  rw [Cursor.isDocumentMark, Cursor.isMark, Cursor.isMark, hne]
  rfl

theorem exists_of_startsWord (h : startsWord v = true) :
    ∃ b r, v = b :: r ∧ isBlank b = false ∧ isBreak b = false ∧ b ≠ '#' := by
  cases v with
  | nil => cases h
  | cons b r =>
      simp only [startsWord, isWordEnd, Bool.and_eq_true, Bool.not_eq_true',
        Bool.or_eq_false_iff, List.head?_cons, bne_iff_ne, ne_eq, Option.some.injEq] at h
      exact ⟨b, r, rfl, h.1.1, h.1.2, h.2⟩

theorem isWordEnd_append_of_startsWord (h : startsWord v = true) (y : List Char) :
    isWordEnd (v ++ y) = false := by
  obtain ⟨b, r, rfl, hblank, hbreak, -⟩ := exists_of_startsWord h
  rw [List.cons_append, isWordEnd, hblank, hbreak, Bool.or_false]

/-- Behind blanks inside such a text, a word comes. -/
theorem startsWord_of_staysPlain {blanks : List Char} (h : staysPlain (blanks ++ v) = true)
    (hne : blanks ≠ []) (hblanks : ∀ b ∈ blanks, isBlank b = true)
    (hhead : ∀ b, v.head? = some b → isBlank b = false) : startsWord v = true := by
  induction blanks with
  | nil => exact absurd rfl hne
  | cons b blanks ih =>
      obtain ⟨-, -, hblank, hrest⟩ := staysPlain_cons h
      obtain ⟨hnext, hhash⟩ := hblank (hblanks b List.mem_cons_self)
      cases blanks with
      | cons d blanks =>
          exact ih hrest (List.cons_ne_nil _ _) fun a ha => hblanks a (List.mem_cons_of_mem b ha)
      | nil =>
          obtain ⟨a, r, rfl⟩ := List.exists_cons_of_ne_nil (show v ≠ [] from hnext)
          rw [startsWord, isWordEnd, hhead a rfl, (staysPlain_cons hrest).1]
          simpa using hhash

/-- The first blanks of a text, and the rest of it. -/
theorem exists_blanks (y : List Char) : ∃ blanks z, y = blanks ++ z ∧
    blanks = y.takeWhile isBlank ∧ z = y.dropWhile isBlank ∧ (∀ b ∈ blanks, isBlank b = true) ∧
      ∀ b, z.head? = some b → isBlank b = false := by
  refine ⟨y.takeWhile isBlank, y.dropWhile isBlank, List.takeWhile_append_dropWhile.symm, rfl, rfl,
    fun b hb => List.all_eq_true.mp List.all_takeWhile b hb, fun b hb => ?_⟩
  simpa [hb] using List.head?_dropWhile_not isBlank y

/-- Such a text is one word, or a word, blanks and again such a text. -/
theorem exists_words (h : staysPlain v = true) (hstart : startsWord v = true) :
    ∃ w u, v = w ++ u ∧ w = (v.takeWhile fun b => !isBlank b) ∧ w ≠ [] ∧
      (u = [] ∨ ∃ blanks v', u = blanks ++ v' ∧ blanks ≠ [] ∧ (∀ b ∈ blanks, isBlank b = true) ∧
        staysPlain v' = true ∧ startsWord v' = true) := by
  have hsplit : v = (v.takeWhile fun b => !isBlank b) ++ v.dropWhile fun b => !isBlank b :=
    List.takeWhile_append_dropWhile.symm
  refine ⟨_, _, hsplit, rfl, ?_, ?_⟩
  · obtain ⟨b, r, rfl, hblank, -⟩ := exists_of_startsWord hstart
    rw [List.takeWhile_cons_of_pos (by rw [hblank]; rfl)]
    exact List.cons_ne_nil _ _
  · cases hu : v.dropWhile fun b => !isBlank b with
    | nil => exact .inl rfl
    | cons b r =>
        have hblank : isBlank b = true := by simpa using (Text.eq_of_dropWhile_eq_cons hu).1
        obtain ⟨blanks, v', hbehind, hblanks, -, hall, hhead⟩ := exists_blanks (b :: r)
        have hne : blanks ≠ [] := by
          rw [hblanks, List.takeWhile_cons_of_pos hblank]
          exact List.cons_ne_nil _ _
        rw [hsplit, hu, hbehind] at h
        have hplain := staysPlain_append h
        exact .inr ⟨blanks, v', hbehind, hne, hall, staysPlain_append hplain,
          startsWord_of_staysPlain hplain hne hall hhead⟩

/-- A place a number of characters on stands as far to the right. -/
theorem Cursor.column_advance_lt_eq_false {indent : Nat} (h : indent ≤ c.column) (n : Nat) :
    (!false && decide ((c.advance n).column < indent)) = false := by
  refine decide_eq_false fun hlt => ?_
  simp only [advance] at hlt
  omega

/-- The blanks behind a word are a gap, if another word follows on the line. -/
theorem plainAfter_blanks {indent n : Nat} {s blanks : List Char} (hne : blanks ≠ [])
    (hall : ∀ b ∈ blanks, isBlank b = true) (hrest : c.rest = blanks ++ y)
    (hword : isWordEnd y = false) (hindent : indent ≤ c.column) :
    plainAfter false indent n s {} c =
      readPlainFrom false indent n s { blanks := blanks } (c.advance blanks.length) := by
  have hstop : (c.rest.isEmpty || !isWordEnd c.rest) = false := by
    obtain ⟨b, r, rfl⟩ := List.exists_cons_of_ne_nil hne
    rw [hrest, List.cons_append, isWordEnd, hall b List.mem_cons_self]
    rfl
  have hnext : (c.advance blanks.length).rest = y := Cursor.rest_advance_append hrest
  rw [plainAfter, hstop, if_neg Bool.false_ne_true, Gap.read_blanks hall hrest,
    Gap.readFrom_of_isWordEnd_eq_false (hnext ▸ hword), ok_bind,
    Cursor.column_advance_lt_eq_false hindent, if_neg Bool.false_ne_true]

/-- One word of such a text is read, with the gap in front of it. -/
theorem readPlainFrom_succ_append {indent n : Nat} {s : List Char} {g : Gap}
    (hv : staysPlain v = true) (hstart : startsWord v = true) (hy : isWordEnd y = true)
    (hrest : c.rest = v ++ y) (hcolumn : 1 ≤ c.column)
    (hne : (v.takeWhile fun b => !isBlank b) ≠ []) :
    readPlainFrom false indent (n + 1) s g c =
      plainAfter false indent n (s ++ g.fold ++ v.takeWhile fun b => !isBlank b) {}
        (c.advance (v.takeWhile fun b => !isBlank b).length) := by
  have hcomment : (c.isDocumentMark || decide (c.head? = some '#')) = false := by
    obtain ⟨b, r, rfl, -, -, hhash⟩ := exists_of_startsWord hstart
    rw [isDocumentMark_of_column hcolumn, Cursor.head?, hrest]
    simpa using hhash
  rw [readPlainFrom_succ, hcomment, if_neg Bool.false_ne_true, hrest, plainWord_append hv hy,
    ok_bind, List.isEmpty_eq_false_iff.mpr hne, if_neg Bool.false_ne_true,
    if_neg Bool.false_ne_true]

/-- **Texts that are plain scalars are read word by word**, in front of a gap. The induction is on
the text; each round reads one word and the blanks behind it. -/
theorem readPlainFrom_append {indent n : Nat} {s : List Char} {g : Gap}
    (hv : staysPlain v = true) (hstart : startsWord v = true) (hy : isWordEnd y = true)
    (hrest : c.rest = v ++ y) (hcolumn : 1 ≤ c.column) (hindent : indent ≤ c.column + 1)
    (hn : c.rest.length < n) :
    ∃ m, y.length ≤ m ∧ readPlainFrom false indent n s g c =
      plainAfter false indent m (s ++ g.fold ++ v) {} (c.advance v.length) := by
  induction hlength : v.length using Nat.strongRecOn generalizing v c n s g with
  | _ k ih =>
      subst hlength
      obtain ⟨n, rfl⟩ : ∃ m, n = m + 1 := Nat.exists_eq_succ_of_ne_zero (Nat.ne_zero_of_lt hn)
      obtain ⟨w, u, hsplit, hw, hne, hu⟩ := exists_words hv hstart
      have hpos : 0 < w.length := List.length_pos_of_ne_nil hne
      rw [readPlainFrom_succ_append hv hstart hy hrest hcolumn (hw ▸ hne), ← hw]
      subst hsplit
      rcases hu with rfl | ⟨blanks, v', rfl, hblanks, hall, hplain, hnext⟩
      · rw [List.append_nil] at hrest ⊢
        refine ⟨n, ?_, rfl⟩
        rw [hrest, List.length_append] at hn
        omega
      -- A gap of blanks and another word follow.
      have hrest₁ : (c.advance w.length).rest = blanks ++ (v' ++ y) := by
        rw [List.append_assoc, List.append_assoc] at hrest
        exact Cursor.rest_advance_append hrest
      have hrest₂ : ((c.advance w.length).advance blanks.length).rest = v' ++ y :=
        Cursor.rest_advance_append hrest₁
      have hlength : c.rest.length = w.length + blanks.length + (v' ++ y).length := by
        simp only [hrest, List.length_append]
        omega
      rw [plainAfter_blanks hblanks hall hrest₁ (isWordEnd_append_of_startsWord hnext y)
        (by simp only [Cursor.advance]; omega)]
      obtain ⟨m, hm, hread⟩ := ih v'.length (by simp only [List.length_append]; omega)
        (s := s ++ g.fold ++ w) (g := { blanks := blanks }) (n := n) hplain hnext hrest₂
        (by simp only [Cursor.advance]; omega) (by simp only [Cursor.advance]; omega)
        (by rw [hrest₂]; omega) rfl
      refine ⟨m, hm, hread.trans ?_⟩
      have hfold : ({ blanks := blanks } : Gap).fold = blanks := rfl
      rw [hfold, Cursor.advance_add, Cursor.advance_add]
      simp only [List.append_assoc, List.length_append]

/-! ### Lines -/

theorem Cursor.line_of_takeBreak? {s : List Char} (h : c.takeBreak? = some (s, d)) :
    d.line = c.line + 1 := by
  obtain ⟨-, n, b, rfl, -⟩ := exists_of_takeBreak? h
  rfl

theorem Gap.Round.line_le {g g₁ : Gap} {e : Cursor} (h : Round g c g₁ e) : c.line ≤ e.line := by
  cases h with
  | line hbreak =>
      rw [Cursor.line_of_takeBreak? hbreak]
      exact Nat.le_succ _
  | blank => exact Nat.le_refl _
  | indentation => exact Nat.le_refl _

theorem Gap.line_le_of_readFrom {indent n : Nat} {g g' : Gap}
    (hread : readFrom indent n g c = .ok (g', d)) : c.line ≤ d.line := by
  induction n generalizing g c with
  | zero =>
      cases hread
      exact Nat.le_refl _
  | succ n ih =>
      rcases exists_of_readFrom_succ hread with ⟨-, rfl, rfl⟩ | ⟨g₁, e, hround, hread⟩
      · exact Nat.le_refl _
      · exact hround.line_le.trans (ih hread)

theorem line_le_of_readPlainFrom {flow : Bool} {indent n : Nat} {text text' : List Char}
    {g g' : Gap} (hread : readPlainFrom flow indent n text g c = .ok (text', g', d)) :
    c.line ≤ d.line := by
  induction n generalizing text g c with
  | zero =>
      cases hread
      exact Nat.le_refl _
  | succ n ih =>
      rw [readPlainFrom_succ] at hread
      split at hread
      · cases hread
        exact Nat.le_refl _
      obtain ⟨word, -, hread⟩ := exists_of_bind_ok hread
      rw [plainAfter] at hread
      split at hread
      · cases hread
        exact Nat.le_refl _
      obtain ⟨⟨g₁, e⟩, hgap, hread⟩ := exists_of_bind_ok hread
      have hline : c.line ≤ e.line :=
        Gap.line_le_of_readFrom (c := c.advance word.length) hgap
      simp only at hread
      split at hread
      · cases hread
        exact hline
      · exact hline.trans (ih hread)

theorem line_le_gapFrom (flow : Bool) (n : Nat) (allowed : Bool) (c : Cursor) :
    c.line ≤ (gapFrom flow n allowed c).2.line := by
  induction n generalizing allowed c with
  | zero => exact Nat.le_refl _
  | succ n ih =>
      simp only [gapFrom]
      generalize hp : (fun b => b == ' ' || ((flow || !allowed) && b == '\t')) = p
      have hsame : (c.skipWhile p).skipComment.line = c.line := by
        rw [Cursor.skipComment]
        split <;> rfl
      split
      next next hbreak =>
        have hline := Cursor.line_of_takeBreak? hbreak
        have hle := ih (allowed || !flow) next
        omega
      · exact hsame.ge

/-! ### The end of a line -/

/-- Two places at the end of a line or in front of its comment, with the same text left. -/
structure Trailing (line : Nat) (c₁ c₂ : Cursor) : Prop where
  rest : c₂.rest = c₁.rest
  line₁ : c₁.line = line
  line₂ : c₂.line = line
  index₁ : 1 ≤ c₁.index
  index₂ : 1 ≤ c₂.index
  ends : c₁.rest = [] ∨ c₁.head? = some '#'

/-- Two places behind a line, with the same text left. -/
def Synced (line : Nat) (c₁ c₂ : Cursor) : Prop :=
  line < c₁.line ∧ ∃ i j h, Kept (.over i j h) c₁ c₂

/-- Behind a line break, it no longer matters where on their lines two places were. -/
theorem Cursor.takeBreak?_of_rest_eq (hrest : c₂.rest = c₁.rest) (hline : c₂.line = c₁.line)
    (h₁ : 1 ≤ c₁.index) (h₂ : 1 ≤ c₂.index) :
    c₁.takeBreak? = none ∧ c₂.takeBreak? = none ∨
      ∃ s d₁ d₂, c₁.takeBreak? = some (s, d₁) ∧ c₂.takeBreak? = some (s, d₂) ∧
        Synced c₁.line d₁ d₂ := by
  have hsynced (n : Nat) : Synced c₁.line (c₁.nextLine n) (c₂.nextLine n) := by
    refine ⟨Nat.lt_succ_self _, c₁.index, c₂.index, by omega, (c₁.nextLine n).rest, ?_, .inl rfl⟩
    refine ⟨(List.append_nil _).symm, ?_, ?_, rfl, n, rfl, rfl⟩
    · rw [nextLine, hrest]
      exact (List.append_nil _).symm
    · rw [nextLine, nextLine, hline]
  cases hcons : c₁.rest with
  | nil => exact .inl ⟨takeBreak?_nil hcons, takeBreak?_nil (hrest.trans hcons)⟩
  | cons b r =>
      rw [takeBreak?_cons hcons, takeBreak?_cons (hrest.trans hcons)]
      split
      · exact .inr ⟨_, _, _, rfl, rfl, hsynced 2⟩
      · split
        · exact .inr ⟨_, _, _, rfl, rfl, hsynced 1⟩
        · exact .inl ⟨rfl, rfl⟩

/-- A plain scalar does not go on at the end of the text or in a comment. -/
theorem readPlainFrom_of_ends {flow : Bool} {indent n : Nat} {text : List Char} {g : Gap}
    (h : c.rest = [] ∨ c.head? = some '#') :
    readPlainFrom flow indent n text g c = .ok (text, g, c) := by
  cases n with
  | zero => rfl
  | succ n =>
      rw [readPlainFrom_succ]
      by_cases hstop : (c.isDocumentMark || decide (c.head? = some '#')) = true
      · rw [if_pos hstop]
      · have hnil : c.rest = [] := h.resolve_right fun hhash => hstop (by simp [hhash])
        rw [if_neg hstop, hnil, plainWord, ok_bind, plainAfter, List.length_nil,
          Cursor.advance_zero, hnil]
        rfl

/-- The blanks in front of the end of the text or of a comment belong to the gap that ends a
scalar. -/
theorem plainAfter_of_ends {indent m : Nat} {text blanks : List Char}
    (hall : ∀ b ∈ blanks, isBlank b = true) (hrest : c.rest = blanks ++ y)
    (hends : y = [] ∨ y.head? = some '#') (hindent : indent ≤ c.column) :
    plainAfter false indent m text {} c =
      .ok (text, { blanks := blanks }, c.advance blanks.length) := by
  have hnext : (c.advance blanks.length).rest = y := Cursor.rest_advance_append hrest
  rw [plainAfter]
  cases blanks with
  | nil =>
      have hstop : (c.rest.isEmpty || !isWordEnd c.rest) = true := by
        rw [hrest]
        rcases hends with rfl | hhash
        · rfl
        · obtain ⟨r, rfl⟩ := List.head?_eq_some_iff.mp hhash
          rfl
      rw [if_pos hstop]
      rfl
  | cons b blanks =>
      have hgo : (c.rest.isEmpty || !isWordEnd c.rest) = false := by
        rw [hrest, List.cons_append, isWordEnd, hall b List.mem_cons_self]
        rfl
      have hstop : Gap.readFrom indent y.length { blanks := b :: blanks }
          (c.advance (b :: blanks).length) =
            .ok ({ blanks := b :: blanks }, c.advance (b :: blanks).length) := by
        rcases hends with rfl | hhash
        · exact Gap.readFrom_of_nil _ _ _ hnext
        · refine Gap.readFrom_of_isWordEnd_eq_false ?_
          obtain ⟨r, rfl⟩ := List.head?_eq_some_iff.mp hhash
          rw [hnext]
          rfl
      rw [if_neg (Bool.eq_false_iff.mp hgo), Gap.read_blanks hall hrest, hstop, ok_bind,
        if_neg (Bool.eq_false_iff.mp (Cursor.column_advance_lt_eq_false hindent _)),
        readPlainFrom_of_ends (by rwa [Cursor.head?, hnext])]

/-- Behind a line break, a scalar goes on in one text as it does in the other one. -/
theorem plainAfter_of_isBreak {indent m k : Nat} {text blanks : List Char} {g : Gap} {d₁ : Cursor}
    {b : Char} (hall : ∀ b ∈ blanks, isBlank b = true) (hbreak : isBreak b = true)
    (h₁ : c₁.rest = blanks ++ b :: y) (h₂ : c₂.rest = blanks ++ b :: y) (hline : c₂.line = c₁.line)
    (hindex₁ : 1 ≤ c₁.index) (hindex₂ : 1 ≤ c₂.index) (hm : y.length < m) (hk : y.length < k)
    (hread : plainAfter false indent m text {} c₁ = .ok (text, g, d₁)) (text₂ : List Char) :
    ∃ d₂, plainAfter false indent k text₂ {} c₂ = .ok (text₂, g, d₂) ∧ Synced c₁.line d₁ d₂ := by
  have hgo : ((blanks ++ b :: y).isEmpty || !isWordEnd (blanks ++ b :: y)) = false := by
    cases blanks with
    | nil => simp [isWordEnd, hbreak]
    | cons a blanks => simp [isWordEnd, hall a List.mem_cons_self]
  simp only [plainAfter, h₁, h₂, hgo, Bool.false_eq_true, if_false, Gap.read_blanks hall h₁,
    Gap.read_blanks hall h₂] at hread ⊢
  have hz₁ : (c₁.advance blanks.length).rest = b :: y := Cursor.rest_advance_append h₁
  have hz₂ : (c₂.advance blanks.length).rest = b :: y := Cursor.rest_advance_append h₂
  rcases Cursor.takeBreak?_of_rest_eq (hz₂.trans hz₁.symm) hline
    (hindex₁.trans (Nat.le_add_right _ _)) (hindex₂.trans (Nat.le_add_right _ _)) with
    ⟨hnone, -⟩ | ⟨s, e₁, e₂, hbreak₁, hbreak₂, hlater, i, j, h, he⟩
  · rw [Cursor.isBreak_of_takeBreak?_eq_none hz₁ hnone] at hbreak
    cases hbreak
  have hlt₁ := (Cursor.rest_of_takeBreak? hbreak₁).2
  have hlt₂ := (Cursor.rest_of_takeBreak? hbreak₂).2
  rw [hz₁, List.length_cons] at hlt₁
  rw [hz₂, List.length_cons] at hlt₂
  simp only [List.length_cons, Gap.readFrom, hbreak₁, List.nil_append] at hread
  simp only [List.length_cons, Gap.readFrom, hbreak₂, List.nil_append]
  obtain ⟨⟨g₁, f₁⟩, hgap₁, hread⟩ := exists_of_bind_ok hread
  obtain ⟨hsuffix₁, f₂, hgap₂, hf⟩ :=
    Gap.agree_readFrom (k := y.length) he (by omega) (by omega) hgap₁
  have hle₁ := hsuffix₁.length_le
  have hle₂ := (Gap.rest_readFrom_suffix (by omega) hgap₂).length_le
  have hline₁ : c₁.line < f₁.line := hlater.trans_le (Gap.line_le_of_readFrom hgap₁)
  rw [hgap₂, ok_bind]
  simp only [hf.column] at hread ⊢
  split at hread
  next hleft =>
    cases hread
    rw [if_pos hleft]
    exact ⟨f₂, rfl, hline₁, i, j, h, hf⟩
  next hleft =>
    rw [if_neg hleft]
    obtain ⟨-, w, hw, hrun⟩ := agree_readPlainFrom (k := k) hf (by omega) (by omega) _ _ _ hread
    obtain rfl : w = [] := by simpa using hw
    obtain ⟨d₂, hread₂, hd⟩ := hrun.resolve_left (fun hpast => not_past_over hpast.1) text₂
    rw [List.append_nil] at hread₂
    exact ⟨d₂, hread₂, hline₁.trans_le (line_le_of_readPlainFrom hread), i, j, h, hd⟩

/-- **What comes behind a plain scalar on its line** does not depend on the scalar, or on where on
the line it ends: when the scalar does not go on behind the line in one text, it does not in the
other one. -/
theorem plainAfter_endsLine {indent m k : Nat} {text : List Char} {g : Gap} {d₁ : Cursor}
    (hy : endsLine y = true) (h₁ : c₁.rest = y) (h₂ : c₂.rest = y) (hline : c₂.line = c₁.line)
    (hindex₁ : 1 ≤ c₁.index) (hindex₂ : 1 ≤ c₂.index) (hindent₁ : indent ≤ c₁.column)
    (hindent₂ : indent ≤ c₂.column) (hm : y.length ≤ m) (hk : y.length ≤ k)
    (hread : plainAfter false indent m text {} c₁ = .ok (text, g, d₁)) (text₂ : List Char) :
    ∃ d₂, plainAfter false indent k text₂ {} c₂ = .ok (text₂, g, d₂) ∧
      (Trailing c₁.line d₁ d₂ ∧ g.breaks = [] ∨ Synced c₁.line d₁ d₂) := by
  obtain ⟨blanks, z, rfl, -, hz, hall, -⟩ := exists_blanks y
  simp only [endsLine, ← hz, Bool.or_eq_true, Bool.and_eq_true, beq_iff_eq] at hy
  by_cases hends : z = [] ∨ z.head? = some '#'
  · -- Nothing is left of the line but perhaps a comment.
    rw [plainAfter_of_ends hall h₁ hends hindent₁] at hread
    cases hread
    have hz₁ : (c₁.advance blanks.length).rest = z := Cursor.rest_advance_append h₁
    have hz₂ : (c₂.advance blanks.length).rest = z := Cursor.rest_advance_append h₂
    refine ⟨_, plainAfter_of_ends hall h₂ hends hindent₂, .inl ⟨⟨hz₂.trans hz₁.symm, rfl, hline,
      hindex₁.trans (Nat.le_add_right _ _), hindex₂.trans (Nat.le_add_right _ _), ?_⟩, rfl⟩⟩
    rwa [Cursor.head?, hz₁]
  · -- The line ends, and both texts go on in the same way.
    obtain ⟨hne, hhash⟩ := not_or.mp hends
    obtain ⟨b, r, rfl⟩ := List.exists_cons_of_ne_nil hne
    have hbreak : isBreak b = true := hy.resolve_right fun h => hhash h.1
    rw [List.length_append, List.length_cons] at hm hk
    obtain ⟨d₂, hread₂, hsynced⟩ := plainAfter_of_isBreak (k := k) hall hbreak h₁ h₂ hline hindex₁
      hindex₂ (by omega) (by omega) hread text₂
    exact ⟨d₂, hread₂, .inr hsynced⟩

/-! ### Gaps behind the line -/

theorem line_le_gap (flow allowed : Bool) (c : Cursor) : c.line ≤ (gap flow allowed c).2.line := by
  have hsame : (skipOrderMark c).line = c.line := by
    rw [skipOrderMark]
    split <;> rfl
  exact hsame.ge.trans (line_le_gapFrom _ _ _ _)

/-- Two places behind a line stay together in a gap. -/
theorem Synced.gap {line : Nat} {flow allowed : Bool} (h : Synced line c₁ c₂) :
    (gap flow allowed c₂).1 = (gap flow allowed c₁).1 ∧
      Synced line (gap flow allowed c₁).2 (gap flow allowed c₂).2 := by
  obtain ⟨hline, i, j, hstart, hkept⟩ := h
  obtain ⟨hsame, hkept⟩ := (agree_gap flow allowed hkept).2.resolve_left not_past_over
  exact ⟨hsame, hline.trans_le (line_le_gap _ _ _), i, j, hstart, hkept⟩

theorem Cursor.rest_skipWhile (c : Cursor) (p : Char → Bool) :
    (c.skipWhile p).rest = c.rest.dropWhile p := by
  have hsplit : c.rest.takeWhile p ++ c.rest.dropWhile p = c.rest :=
    List.takeWhile_append_dropWhile
  calc c.rest.drop (c.rest.takeWhile p).length
      = (c.rest.takeWhile p ++ c.rest.dropWhile p).drop (c.rest.takeWhile p).length := by
        rw [hsplit]
    _ = c.rest.dropWhile p := List.drop_left

theorem isLineEnd_dropWhile (s : List Char) :
    isLineEnd (s.dropWhile fun b => !isBreak b) = true := by
  rw [isLineEnd_eq_head?]
  cases hhead : (s.dropWhile fun b => !isBreak b).head? with
  | none => rfl
  | some b => simpa [hhead] using List.head?_dropWhile_not (fun b => !isBreak b) s

/-- At the end of a line there is no blank to skip. -/
theorem Cursor.skipWhile_of_ends {p : Char → Bool} (hp : p '#' = false)
    (h : c.rest = [] ∨ c.head? = some '#') : c.skipWhile p = c := by
  have hskip : c.rest.takeWhile p = [] := by
    rcases h with hnil | hhash
    · rw [hnil, List.takeWhile_nil]
    · obtain ⟨r, hrest⟩ := exists_of_head? hhash
      rw [hrest]
      exact List.takeWhile_cons_of_neg (Bool.eq_false_iff.mp hp)
  rw [skipWhile, hskip, List.length_nil, advance_zero]

/-- The comment at the end of a line, if there is one, is the same. -/
theorem Trailing.exists_skipComment {line : Nat} (h : Trailing line c₁ c₂) :
    ∃ n, c₁.skipComment = c₁.advance n ∧ c₂.skipComment = c₂.advance n ∧
      isLineEnd (c₁.advance n).rest = true := by
  have hhead : c₂.head? = c₁.head? := by rw [Cursor.head?, h.rest, Cursor.head?]
  rw [Cursor.skipComment, Cursor.skipComment, hhead]
  rcases h.ends with hnil | hhash
  · have hne : c₁.head? ≠ some '#' := by
      rw [Cursor.head?, hnil]
      exact (Option.some_ne_none '#').symm
    refine ⟨0, if_neg hne, if_neg hne, ?_⟩
    rw [Cursor.advance_zero, hnil]
    rfl
  · refine ⟨(c₁.rest.takeWhile fun b => !isBreak b).length, if_pos hhash, ?_, ?_⟩
    · rw [if_pos hhash, Cursor.skipWhile, h.rest]
    · have hline := c₁.rest_skipWhile fun b => !isBreak b
      rw [Cursor.skipWhile] at hline
      rw [hline]
      exact isLineEnd_dropWhile _

/-- Two places at the end of a line come together behind it, unless the text is over. -/
theorem Trailing.gap {line : Nat} {flow allowed : Bool} (h : Trailing line c₁ c₂) :
    (gap flow allowed c₁).2.rest = [] ∧ (gap flow allowed c₂).2.rest = [] ∨
      (gap flow allowed c₂).1 = (gap flow allowed c₁).1 ∧
        Synced line (gap flow allowed c₁).2 (gap flow allowed c₂).2 := by
  have horder {c : Cursor} (hindex : 1 ≤ c.index) : skipOrderMark c = c :=
    if_neg fun hmark => absurd hmark.1 (by omega)
  have hends : c₂.rest = [] ∨ c₂.head? = some '#' := by
    rw [Cursor.head?, h.rest]
    exact h.ends
  simp only [Yaml.gap, horder h.index₁, horder h.index₂, gapFrom]
  generalize hblank : (fun b => b == ' ' || ((flow || !allowed) && b == '\t')) = p
  have hp : p '#' = false := by
    rw [← hblank]
    cases flow <;> cases allowed <;> decide
  obtain ⟨n, hcomment₁, hcomment₂, hend⟩ := h.exists_skipComment
  rw [Cursor.skipWhile_of_ends hp h.ends, Cursor.skipWhile_of_ends hp hends, hcomment₁, hcomment₂]
  have hrest : (c₂.advance n).rest = (c₁.advance n).rest := by
    rw [Cursor.advance, Cursor.advance, h.rest]
  rcases Cursor.takeBreak?_of_rest_eq hrest (h.line₂.trans h.line₁.symm)
    (h.index₁.trans (Nat.le_add_right _ _)) (h.index₂.trans (Nat.le_add_right _ _)) with
    ⟨hnone₁, hnone₂⟩ | ⟨s, d₁, d₂, hbreak₁, hbreak₂, hd⟩
  · have hnil : (c₁.advance n).rest = [] := by
      cases hcons : (c₁.advance n).rest with
      | nil => rfl
      | cons b r =>
          rw [hcons, isLineEnd, Cursor.isBreak_of_takeBreak?_eq_none hcons hnone₁] at hend
          cases hend
    rw [hnone₁, hnone₂]
    exact .inl ⟨hnil, hrest.trans hnil⟩
  · rw [hbreak₁, hbreak₂]
    have hlt₁ := (Cursor.rest_of_takeBreak? hbreak₁).2
    have hlt₂ := (Cursor.rest_of_takeBreak? hbreak₂).2
    have hle₁ := (c₁.rest_advance_suffix n).length_le
    have hle₂ := (c₂.rest_advance_suffix n).length_le
    obtain ⟨hlater, i, j, hstart, hkept⟩ := hd
    have hline : line < d₁.line := h.line₁ ▸ hlater
    obtain ⟨hsame, hkept⟩ := (agree_gapFrom flow (allowed || !flow) (m := c₁.rest.length)
      (k := c₂.rest.length) hkept (by omega) (by omega)).2.resolve_left not_past_over
    exact .inr ⟨hsame, hline.trans_le (line_le_gapFrom _ _ _ _), i, j, hstart, hkept⟩

end RealmDirectory.Yaml
