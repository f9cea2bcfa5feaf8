import RealmDirectory.Proofs.Yaml.Lexing

/-!
# Another text for a scalar

A text in which a marker is a plain scalar at the end of a line has the same tokens when something
else that is a plain scalar stands there, but for this scalar itself. Up to the scalar, the two
lexers read the same text. Behind it they are at different columns, but only a comment can follow on
the line, and a new line begins at the same column for both.

## Main definitions

* `IsMarker`: texts that are easy to find again.
* `Lexer.goOn`: the rest of a run, behind a token.

## Main results

* `not_mem_of_run`: a lexer finds no marker that is not in its text.
* `read_twin`: lexers that keep up with each other have the same tokens in the end.
* `goOn_behind`: so do lexers that have read the marker and the scalar in its place.
* `tokens_fill`: the tokens of the two texts.
-/

namespace RealmDirectory.Yaml

open Lexer

/-- A text that begins with a dollar sign and a brace, with no other dollar sign and no gap. -/
structure IsMarker (r : List Char) : Prop where
  opens : ∃ r', r = '$' :: '\x7b' :: r' ∧ '$' ∉ r'
  solid : ∀ b ∈ r, isGapChar b = false
  stays : staysPlain r = true

variable {t : Tails} {r v y : List Char} {ts : List Token} {l l' l₁ l₂ l₁' l₂' : Lexer}
  {c d c₁ c₂ : Cursor} {n k : Nat}

/-! ### Runs -/

/-- Reading a token goes on in what is left behind its first character. -/
theorem rest_scan_suffix {flow : Bool} {indent : Nat} {e : Event}
    (hread : scan flow indent c = .ok (e, d)) : d.rest <:+ (c.advance 1).rest := by
  cases hb : c.head? with
  | none =>
      rw [scan, hb] at hread
      cases hread
      have hnil : c.rest = [] := List.head?_eq_none_iff.mp hb
      rw [hnil]
      exact List.nil_suffix
  | some b => exact (agree_scan (within_over c) hb (isBlank_of_scan hb hread) _ _ hread).1

namespace Lexer

/-- Goes on behind a token. -/
def goOn (n : Nat) (l : Lexer) : Except Fault (List Token) :=
  if l.cursor.rest.isEmpty then run 0 l else run n l

theorem run_succ (n : Nat) (l : Lexer) :
    run (n + 1) l = l.approach >>= fun l => l.readToken >>= goOn n := by
  rw [run, step_eq]
  cases l.approach with
  | error f => rfl
  | ok l => cases l.readToken <;> rfl

/-- What a token leaves, in its parts. -/
theorem exists_of_readToken (h : l.readToken = .ok l') :
    ∃ e c l₁, scan l.inFlow l.innerColumn l.cursor = .ok (e, c) ∧ e.update l = .ok l₁ ∧
      l' = l₁.moveTo c ∧ c.rest <:+ (l.cursor.advance 1).rest := by
  obtain ⟨e, c, l₁, hscan, hupdate, rfl⟩ := readToken_eq_ok_iff.mp h
  exact ⟨e, c, l₁, hscan, hupdate, rfl, rest_scan_suffix hscan⟩

theorem grounded_of_readToken (h : l.readToken = .ok l') (hl : l.IsGrounded) : l'.IsGrounded := by
  obtain ⟨e, c, l₁, -, hupdate, rfl, -⟩ := exists_of_readToken h
  exact (onward_update hupdate).grounded hl

/-- What a lexer knows in front of a token. -/
structure IsReady (l : Lexer) : Prop where
  grounded : l.IsGrounded
  column : l.inFlow = false → l.innerColumn ≤ l.cursor.column + 1
  lines : ∀ k, some k ∈ l.keys → k.place.line = l.cursor.line

theorem isReady_of_approach (h : l.approach = .ok l') (hl : l.IsGrounded) : l'.IsReady :=
  ⟨(onward_approach h).grounded hl, innerColumn_of_approach h hl, fun _ => line_of_approach h⟩

end Lexer

/-! ### Lexers that find no marker -/

/-- No marker is found where none stands. -/
theorem token?_of_scan {flow : Bool} {indent : Nat} {e : Event} (hr : IsMarker r)
    (hc : ¬ r <+: c.rest) (hread : scan flow indent c = .ok (e, d)) :
    e.token? ≠ some (.scalar true r) := by
  intro htoken
  obtain ⟨hstarts, hmark, broken, hplain, -⟩ := exists_of_scan_plain hread htoken
  exact hc (prefix_of_readPlain hstarts hmark hplain hr.solid)

theorem not_mem_of_approach (h : l.approach = .ok l') (hl : .scalar true r ∉ l.tokens) :
    .scalar true r ∉ l'.tokens :=
  fun hmem => ((onward_approach h).tokens r hmem).elim hl fun heq => by cases heq

theorem not_mem_of_readToken (hr : IsMarker r) (hc : ¬ r <+: l.cursor.rest)
    (hl : .scalar true r ∉ l.tokens) (h : l.readToken = .ok l') : .scalar true r ∉ l'.tokens := by
  obtain ⟨e, c, l₁, hscan, hupdate, rfl, -⟩ := exists_of_readToken h
  intro hmem
  exact ((onward_update hupdate).tokens r hmem).elim hl (token?_of_scan hr hc hscan)

theorem not_mem_of_run_zero (hl : .scalar true r ∉ l.tokens) (h : run 0 l = .ok ts) :
    .scalar true r ∉ ts := by
  obtain ⟨-, rfl⟩ := run_zero_eq_ok_iff.mp h
  exact fun hmem => ((onward_closeBlocks (-1) l).tokens r hmem).elim hl fun heq => by cases heq

/-- **A lexer finds no marker that is not in its text.** -/
theorem not_mem_of_run (hr : IsMarker r) (hc : ¬ r <:+: l.cursor.rest)
    (hl : .scalar true r ∉ l.tokens) (h : run n l = .ok ts) : .scalar true r ∉ ts := by
  induction n generalizing l with
  | zero => exact not_mem_of_run_zero hl h
  | succ n ih =>
      rw [run_succ] at h
      obtain ⟨l₁, happroach, h⟩ := exists_of_bind_ok h
      obtain ⟨l₂, htoken, h⟩ := exists_of_bind_ok h
      have hsuffix := rest_of_approach happroach
      have hl₂ := not_mem_of_readToken hr
        (fun hfront => hc (hfront.isInfix.trans hsuffix.isInfix)) (not_mem_of_approach happroach hl)
        htoken
      rw [goOn] at h
      split at h
      · exact not_mem_of_run_zero hl₂ h
      · refine ih (fun hinside => hc (hinside.trans ?_)) hl₂ h
        obtain ⟨e, c, l', -, -, rfl, hrest⟩ := exists_of_readToken htoken
        exact ((hrest.trans (Cursor.rest_advance_suffix _ 1)).trans hsuffix).isInfix

theorem not_mem_of_goOn (hr : IsMarker r) (hc : ¬ r <:+: l.cursor.rest)
    (hl : .scalar true r ∉ l.tokens) (h : goOn n l = .ok ts) : .scalar true r ∉ ts := by
  rw [goOn] at h
  split at h
  · exact not_mem_of_run_zero hl h
  · exact not_mem_of_run hr hc hl h

theorem not_mem_of_read (hr : IsMarker r) (hc : ¬ r <:+: l.cursor.rest)
    (hl : .scalar true r ∉ l.tokens) (h : l.readToken >>= goOn n = .ok ts) :
    .scalar true r ∉ ts := by
  obtain ⟨l', htoken, hgo⟩ := exists_of_bind_ok h
  refine not_mem_of_goOn hr (fun hinside => hc (hinside.trans ?_))
    (not_mem_of_readToken hr (fun hfront => hc hfront.isInfix) hl htoken) hgo
  obtain ⟨e, c, l₁, -, -, rfl, hrest⟩ := exists_of_readToken htoken
  exact (hrest.trans (Cursor.rest_advance_suffix _ 1)).isInfix

/-! ### Lexers that keep up with each other -/

/-- Whether the second lexer has the tokens of the first one, but for the marker. -/
def Follows (r v : List Char) (ts : List Token) (m₁ m₂ : Except Fault (List Token)) : Prop :=
  m₁ = .ok ts → m₂ = .ok (ts.map (Token.substitute r v))

/-- Lexers that have not met the marker, unless it is behind them for good. -/
structure Together (t : Tails) (r v : List Char) (l₁ l₂ : Lexer) : Prop where
  twin : Twin t r v l₁ l₂
  kept : Kept t l₁.cursor l₂.cursor
  fresh : t.rest₁ ≠ [] → .scalar true r ∉ l₁.tokens
  free : ∀ c₁ c₂, Within t c₁ c₂ → c₁.rest <:+ l₁.cursor.rest → ¬ r <+: c₁.rest

theorem Past.ne_nil (h : Past t c) : t.rest₁ ≠ [] := by
  intro hnil
  have hlt := h.2
  rw [hnil] at hlt
  exact Nat.not_lt_zero _ hlt

/-- The end of the text is found in both texts. -/
theorem Within.scan (h : Within t c₁ c₂) {flow : Bool} {indent : Nat} {e : Event}
    (hread : scan flow indent c₁ = .ok (e, d)) :
    Past t d ∨ ∃ d₂, scan flow indent c₂ = .ok (e, d₂) ∧ Kept t d d₂ := by
  cases hb : c₁.head? with
  | none =>
      rw [Yaml.scan, hb] at hread
      cases hread
      rw [Yaml.scan, h.head?, hb]
      exact .inr ⟨c₂, rfl, h.kept⟩
  | some b => exact (agree_scan h hb (isBlank_of_scan hb hread) _ _ hread).2

/-- The step from one token to the next, which the first lexer has some fuel for. -/
theorem goOn_together (hr : IsMarker r) (hts : .scalar true r ∈ ts)
    (hpast : ∀ c, Past t c → ¬ r <:+: c.rest)
    (ih : ∀ m < n, ∀ {l₁ l₂ k}, Together t r v l₁ l₂ → l₁.IsReady → l₁.cursor.rest.length ≤ m →
      l₂.cursor.rest.length ≤ k →
      Follows r v ts (l₁.readToken >>= goOn m) (l₂.readToken >>= goOn k))
    (h : Together t r v l₁ l₂) (hl : l₁.IsGrounded)
    (hn : l₁.cursor.rest ≠ [] → l₁.cursor.rest.length < n)
    (hk : l₂.cursor.rest ≠ [] → l₂.cursor.rest.length < k) :
    Follows r v ts (goOn n l₁) (goOn k l₂) := by
  intro hgo
  rw [goOn] at hgo ⊢
  rw [h.kept.isEmpty_rest]
  split at hgo
  next hnil =>
    rw [if_pos hnil]
    exact h.twin.run_zero hgo
  next hne =>
    rw [if_neg hne]
    have hne : l₁.cursor.rest ≠ [] := fun hnil => hne (by rw [hnil]; rfl)
    have hn := hn hne
    have hk := hk (h.kept.rest_ne_nil hne)
    obtain ⟨m, rfl⟩ : ∃ m, n = m + 1 := Nat.exists_eq_succ_of_ne_zero (Nat.ne_zero_of_lt hn)
    obtain ⟨j, rfl⟩ : ∃ j, k = j + 1 := Nat.exists_eq_succ_of_ne_zero (Nat.ne_zero_of_lt hk)
    rw [run_succ] at hgo ⊢
    obtain ⟨l₁', happroach, hgo⟩ := exists_of_bind_ok hgo
    have hfresh (hne : t.rest₁ ≠ []) := not_mem_of_approach happroach (h.fresh hne)
    have hsuffix := rest_of_approach happroach
    rcases h.twin.approach h.kept happroach with hgone | ⟨l₂', happroach₂, htwin, hkept⟩
    · exact absurd hts (not_mem_of_read hr (hpast _ hgone) (hfresh hgone.ne_nil) hgo)
    have hsuffix₂ := rest_of_approach happroach₂
    rw [happroach₂, ok_bind]
    exact ih m (Nat.lt_succ_self m) ⟨htwin, hkept, hfresh, fun c₁ c₂ hc hrest =>
        h.free c₁ c₂ hc (hrest.trans hsuffix)⟩ (isReady_of_approach happroach hl)
      (hsuffix.length_le.trans (Nat.le_of_lt_succ hn))
      (hsuffix₂.length_le.trans (Nat.le_of_lt_succ hk)) hgo

/-- What is left behind a token is less, unless it is nothing. -/
theorem length_lt_of_scan {flow : Bool} {indent : Nat} {e : Event}
    (hread : scan flow indent c = .ok (e, d)) (hn : c.rest.length ≤ n) (hne : d.rest ≠ []) :
    d.rest.length < n := by
  have hsuffix := rest_scan_suffix hread
  have hc : c.rest ≠ [] := fun hnil => hne (by
    rw [Cursor.advance, hnil] at hsuffix
    exact List.suffix_nil.mp hsuffix)
  exact (hsuffix.length_le.trans_lt (Cursor.length_advance_lt hc (Nat.le_refl 1))).trans_le hn

/-- **Lexers that keep up with each other have the same tokens**, provided that they do when the
first one comes to the place. The induction is on the fuel of the first lexer, of which every token
takes some. -/
theorem read_twin (hr : IsMarker r) (hts : .scalar true r ∈ ts)
    (hpast : ∀ c, Past t c → ¬ r <:+: c.rest)
    (hplace : ∀ n k l₁ l₂, Together t r v l₁ l₂ → l₁.IsReady → ¬ Within t l₁.cursor l₂.cursor →
      l₁.cursor.rest.length ≤ n → l₂.cursor.rest.length ≤ k →
      Follows r v ts (l₁.readToken >>= goOn n) (l₂.readToken >>= goOn k))
    (h : Together t r v l₁ l₂) (hready : l₁.IsReady) (hn : l₁.cursor.rest.length ≤ n)
    (hk : l₂.cursor.rest.length ≤ k) :
    Follows r v ts (l₁.readToken >>= goOn n) (l₂.readToken >>= goOn k) := by
  induction n using Nat.strongRecOn generalizing l₁ l₂ k with
  | _ n ih =>
  by_cases hwithin : Within t l₁.cursor l₂.cursor
  · intro hread
    obtain ⟨l₁', htoken, hgo⟩ := exists_of_bind_ok hread
    have hfree := h.free _ _ hwithin (List.suffix_refl _)
    have hfresh (hne : t.rest₁ ≠ []) := not_mem_of_readToken hr hfree (h.fresh hne) htoken
    have hground := grounded_of_readToken htoken hready.grounded
    obtain ⟨e, d₁, m₁, hscan, hupdate, rfl, hsuffix⟩ := exists_of_readToken htoken
    rcases hwithin.scan hscan with hgone | ⟨d₂, hscan₂, hkept⟩
    · exact absurd hts
        (not_mem_of_goOn (l := m₁.moveTo d₁) hr (hpast _ hgone) (hfresh hgone.ne_nil) hgo)
    obtain ⟨m₂, hupdate₂, htwin⟩ := h.twin.update h.kept hupdate
    rw [Event.substitute_of_ne (token?_of_scan hr hfree hscan)] at hupdate₂
    have htoken₂ : l₂.readToken = .ok (m₂.moveTo d₂) := by
      refine readToken_eq_ok_iff.mpr ⟨e, d₂, m₂, ?_, hupdate₂, rfl⟩
      rw [h.twin.inFlow, innerColumn, h.twin.indent]
      exact hscan₂
    rw [htoken₂, ok_bind]
    exact goOn_together hr hts hpast (fun m hm _ _ _ => ih m hm)
      ⟨htwin.moveTo d₁ d₂, hkept, hfresh, fun c₁ c₂ hc hrest => h.free c₁ c₂ hc
        (hrest.trans (hsuffix.trans (Cursor.rest_advance_suffix _ 1)))⟩ hground
      (length_lt_of_scan hscan hn) (length_lt_of_scan hscan₂ hk) hgo
  · exact hplace n k l₁ l₂ h hready hwithin hn hk

/-! ### Behind the scalar -/

/-- With nothing behind the place, every place is in front of it. -/
theorem Kept.within_of_over {i j : Nat} {h : j = 0 ↔ i = 0} (hkept : Kept (.over i j h) c₁ c₂) :
    Within (.over i j h) c₁ c₂ := by
  rcases hkept.within_or with hwithin | ⟨-, -, t₁, b, t₂, hcons, -⟩
  · exact hwithin
  · cases hcons

theorem closeColumns_closeColumns {a b : Int} (h : a ≤ b) (indent : Int) (outer : List Int)
    (us : List Token) :
    closeColumns a (closeColumns b indent outer us).1 (closeColumns b indent outer us).2.1
      (closeColumns b indent outer us).2.2 = closeColumns a indent outer us := by
  induction outer generalizing indent us with
  | nil => rfl
  | cons o outer ih =>
      by_cases hb : b < indent
      · have ha : a < indent := by omega
        rw [closeColumns, if_pos hb, closeColumns, if_pos ha]
        exact ih o (us ++ [.blockEnd])
      · rw [closeColumns, if_neg hb]

/-- Blocks that are closed twice are closed once for the left column. -/
theorem tokens_closeBlocks_closeBlocks {a b : Int} (h : a ≤ b) (l : Lexer) :
    ((l.closeBlocks b).closeBlocks a).tokens = (l.closeBlocks a).tokens := by
  have hflow : (l.closeBlocks b).inFlow = l.inFlow := by
    rw [inFlow, keys_closeBlocks, inFlow]
  by_cases hl : l.inFlow = true
  · rw [closeBlocks, hflow, if_pos hl, closeBlocks, if_pos hl, closeBlocks, if_pos hl]
  · rw [closeBlocks, hflow, if_neg hl, closeBlocks, if_neg hl, closeBlocks, if_neg hl]
    exact congrArg (fun p => p.2.2) (closeColumns_closeColumns h l.indent l.outer l.tokens)

/-- **What is left at the end of the text**, outside brackets: no key that is waited for, and the
blocks are closed. -/
theorem read_end_eq_ok_iff (hflow : l.inFlow = false) (hnil : l.nextPlace.rest = []) :
    (l.approach >>= fun l => l.readToken >>= goOn n) = .ok ts ↔
      (∀ k, some k ∈ l.keys → k.required = false) ∧ ts = (l.closeBlocks (-1)).tokens := by
  have hrun (l' : Lexer) (hl : l'.cursor = l.nextPlace) : (l'.readToken >>= goOn n) = run 0 l' := by
    have htoken : l'.readToken = .ok l' := by
      rw [readToken, hl, Cursor.head?, hnil]
      rfl
    rw [htoken, ok_bind, goOn, hl, hnil]
    rfl
  have htokens : ((l.atNext.closeBlocks l.nextPlace.column).closeBlocks (-1)).tokens =
      (l.closeBlocks (-1)).tokens := by
    have hnext : l.atNext.inFlow = l.inFlow := by
      rw [inFlow, inFlow, atNext, List.length_map]
    rw [tokens_closeBlocks_closeBlocks (by omega), closeBlocks, closeBlocks, hnext]
    split <;> rfl
  constructor
  · intro h
    obtain ⟨l', happroach, h⟩ := exists_of_bind_ok h
    rw [hrun l' (cursor_of_approach happroach)] at h
    obtain ⟨hlate, rfl⟩ := approach_eq_ok_iff.mp happroach
    obtain ⟨hrequired, rfl⟩ := run_zero_eq_ok_iff.mp h
    refine ⟨fun k hk => ?_, htokens⟩
    cases hfresh : isFresh l.nextPlace k with
    | false => exact hlate k hk hfresh
    | true =>
        -- Outside brackets, a possible key is the only one.
        refine hrequired k ?_
        have hone : l.keys.length ≤ 1 := by simpa [inFlow] using hflow
        obtain ⟨k', hkeys⟩ := List.length_eq_one_iff.mp
          (le_antisymm hone (List.length_pos_of_mem hk))
        rw [hkeys, List.mem_singleton] at hk
        rw [keys_closeBlocks, atNext, hkeys, ← hk]
        simp [Option.filter, hfresh]
  · rintro ⟨hrequired, rfl⟩
    rw [approach_eq_ok_iff.mpr ⟨fun k hk _ => hrequired k hk, rfl⟩, ok_bind,
      hrun _ (cursor_closeBlocks _ _)]
    refine run_zero_eq_ok_iff.mpr ⟨fun k hk => ?_, htokens.symm⟩
    rw [keys_closeBlocks] at hk
    obtain ⟨k', hmem, hfilter⟩ := List.mem_map.mp (List.mem_of_head? hk)
    obtain ⟨rfl, -⟩ := Option.filter_eq_some_iff.mp hfilter
    exact hrequired k hmem

/-- Behind a line, its possible keys have expired in both texts. -/
theorem approach_behind {line : Nat} (h : Twin t r v l₁ l₂)
    (hallowed : (gap l₂.inFlow l₂.keyAllowed l₂.cursor).1 =
      (gap l₁.inFlow l₁.keyAllowed l₁.cursor).1)
    (hnext : Synced line l₁.nextPlace l₂.nextPlace)
    (hlines : ∀ k, some k ∈ l₁.keys → k.place.line = line) (happroach : l₁.approach = .ok l₁') :
    ∃ l₂' i j hstart, l₂.approach = .ok l₂' ∧ Twin (.over i j hstart) r v l₁' l₂' ∧
      Kept (.over i j hstart) l₁'.cursor l₂'.cursor := by
  obtain ⟨hlater, i, j, hstart, hkept⟩ := hnext
  obtain ⟨hrequired, rfl⟩ := approach_eq_ok_iff.mp happroach
  have hlate {c : Cursor} {k : PossibleKey} (hc : line < c.line) (hk : k.place.line = line) :
      isFresh c k = false := by
    have hne : (k.place.line == c.line) = false := beq_eq_false_iff_ne.mpr (by omega)
    rw [isFresh, hne]
    rfl
  have hlines₂ (k : PossibleKey) (hk : some k ∈ l₂.keys) : k.place.line = line := by
    obtain ⟨k₁, hk₁, hkey⟩ := h.exists_mem hk
    exact hkey.line.trans (hlines k₁ hk₁)
  have hlater₂ : line < l₂.nextPlace.line := hkept.line ▸ hlater
  refine ⟨_, i, j, hstart, approach_eq_ok_iff.mpr ⟨fun k₂ hk₂ _ => ?_, rfl⟩, ?_, ?_⟩
  · obtain ⟨k₁, hk₁, hkey⟩ := h.exists_mem hk₂
    exact hkey.required.trans (hrequired k₁ hk₁ (hlate hlater (hlines k₁ hk₁)))
  · rw [hkept.column]
    refine Twin.closeBlocks ?_ _
    have hnone {l : Lexer} (hl : ∀ k, some k ∈ l.keys → k.place.line = line)
        (hc : line < l.nextPlace.line) :
        l.keys.map (Option.filter (isFresh l.nextPlace)) = List.replicate l.keys.length none := by
      refine List.eq_replicate_iff.mpr ⟨List.length_map _, fun k hk => ?_⟩
      obtain ⟨k', hmem, rfl⟩ := List.mem_map.mp hk
      cases k' with
      | none => rfl
      | some k' => simp [Option.filter, hlate hc (hl k' hmem)]
    refine ⟨h.tokens, h.indent, h.outer, hallowed, ?_⟩
    rw [atNext, atNext, hnone hlines hlater, hnone hlines₂ hlater₂, h.keys.length_eq]
    generalize l₂.keys.length = n
    induction n with
    | zero => exact .nil
    | succ n ih => exact .cons .none ih
  · rw [cursor_closeBlocks, cursor_closeBlocks]
    exact hkept

/-- **Behind the scalar**, at the end of its line or on a later one, lexers have the same tokens. -/
theorem goOn_behind {line : Nat} (hr : IsMarker r) (hts : .scalar true r ∈ ts)
    (h : Twin t r v l₁ l₂) (hl : l₁.IsGrounded) (hflow : l₁.inFlow = false)
    (hlines : ∀ k, some k ∈ l₁.keys → k.place.line = line)
    (hcursor : Trailing line l₁.cursor l₂.cursor ∨ Synced line l₁.cursor l₂.cursor)
    (hclear : ¬ r <:+: l₁.cursor.rest) (hn : l₁.cursor.rest ≠ [] → l₁.cursor.rest.length < n)
    (hk : l₂.cursor.rest ≠ [] → l₂.cursor.rest.length < k) :
    Follows r v ts (goOn n l₁) (goOn k l₂) := by
  have hempty : l₂.cursor.rest.isEmpty = l₁.cursor.rest.isEmpty := by
    rcases hcursor with htrailing | ⟨-, i, j, hstart, hkept⟩
    · rw [htrailing.rest]
    · exact hkept.isEmpty_rest
  intro hgo
  rw [goOn] at hgo ⊢
  rw [hempty]
  split at hgo
  next hnil =>
    rw [if_pos hnil]
    exact h.run_zero hgo
  next hne =>
    rw [if_neg hne]
    have hn := hn fun hnil => hne (by rw [hnil]; rfl)
    have hk := hk fun hnil => hne (by rw [← hempty, hnil]; rfl)
    obtain ⟨m, rfl⟩ : ∃ m, n = m + 1 := Nat.exists_eq_succ_of_ne_zero (Nat.ne_zero_of_lt hn)
    obtain ⟨j, rfl⟩ : ∃ j, k = j + 1 := Nat.exists_eq_succ_of_ne_zero (Nat.ne_zero_of_lt hk)
    rw [run_succ] at hgo ⊢
    have hplace : l₂.nextPlace = (gap l₁.inFlow l₁.keyAllowed l₂.cursor).2 := by
      rw [nextPlace, h.inFlow, h.keyAllowed]
    have hgap : l₁.nextPlace.rest = [] ∧ l₂.nextPlace.rest = [] ∨
        (gap l₂.inFlow l₂.keyAllowed l₂.cursor).1 =
          (gap l₁.inFlow l₁.keyAllowed l₁.cursor).1 ∧ Synced line l₁.nextPlace l₂.nextPlace := by
      rw [hplace, h.inFlow, h.keyAllowed]
      rcases hcursor with htrailing | hsynced
      · exact htrailing.gap
      · exact .inr hsynced.gap
    rcases hgap with ⟨hend₁, hend₂⟩ | ⟨hallowed, hsynced⟩
    · obtain ⟨hrequired, rfl⟩ := (read_end_eq_ok_iff hflow hend₁).mp hgo
      refine (read_end_eq_ok_iff (h.inFlow.trans hflow) hend₂).mpr ⟨fun k₂ hk₂ => ?_, ?_⟩
      · obtain ⟨k₁, hk₁, hkey⟩ := h.exists_mem hk₂
        exact hkey.required.trans (hrequired k₁ hk₁)
      · exact (h.closeBlocks (-1)).tokens.symm
    · obtain ⟨l₁', happroach, hgo⟩ := exists_of_bind_ok hgo
      have hsuffix := rest_of_approach happroach
      obtain ⟨l₂', i, j, hstart, happroach₂, htwin, hkept⟩ :=
        approach_behind h hallowed hsynced hlines happroach
      have hsuffix₂ := rest_of_approach happroach₂
      rw [happroach₂, ok_bind]
      refine read_twin hr hts (fun c hpast => absurd hpast not_past_over)
        (fun _ _ _ _ htogether _ hnot => absurd htogether.kept.within_of_over hnot)
        ⟨htwin, hkept, fun hne => absurd rfl hne, fun c₁ c₂ _ hrest hfront => ?_⟩
        (isReady_of_approach happroach hl) (hsuffix.length_le.trans (Nat.le_of_lt_succ hn))
        (hsuffix₂.length_le.trans (Nat.le_of_lt_succ hk)) hgo
      exact hclear (hfront.isInfix.trans (hrest.trans hsuffix).isInfix)

/-! ### At the scalar -/

/-- A text that is a plain scalar begins with a word. -/
theorem startsWord_of_startsPlain {flow : Bool} (h : startsPlain flow { rest := v } = true) :
    startsWord v = true := by
  obtain ⟨b, w, hrest, hgap, -, -, hhash⟩ := exists_of_startsPlain h
  obtain rfl : v = b :: w := hrest
  rw [startsWord, isWordEnd, hgap]
  simpa using hhash

/-- A text that is a plain scalar is read as one, up to the end of its line. -/
theorem exists_readPlain_eq {indent : Nat} (hv : staysPlain v = true) (hstart : startsWord v = true)
    (hy : isWordEnd y = true) (hrest : c.rest = v ++ y) (hcolumn : 1 ≤ c.column)
    (hindent : indent ≤ c.column + 1) :
    ∃ m, y.length ≤ m ∧ readPlain false indent c =
      (plainAfter false indent m v {} (c.advance v.length)).map fun p =>
        (p.1, !p.2.1.breaks.isEmpty, p.2.2) := by
  obtain ⟨m, hm, hread⟩ := readPlainFrom_append (s := []) (g := {}) hv hstart hy hrest hcolumn
    hindent (Nat.lt_succ_self _)
  refine ⟨m, hm, ?_⟩
  have hnothing : ([] : List Char) ++ ({} : Gap).fold ++ v = v := rfl
  rw [readPlain, hread, hnothing]
  cases plainAfter false indent m v {} (c.advance v.length) <;> rfl

/-- Where a plain scalar begins, there is no other sign. -/
theorem ne_sign_of_startsPlain {b : Char} (h : startsPlain false c = true) (hb : c.head? = some b) :
    (∀ a ∈ [',', '[', ']', '\x7b', '\x7d', '#', '&', '*', '!', '|', '>', '\'', '"', '%'], b ≠ a) ∧
      (b = '-' → c.second?.any isBlank = false) ∧ (b = '?' ∨ b = ':' → c.isLone = false) := by
  rw [startsPlain, hb] at h
  simp only [Bool.or_eq_true, Bool.and_eq_true, Bool.not_eq_true', Bool.or_eq_false_iff,
    beq_iff_eq] at h
  rcases h with (⟨-, hsign⟩ | ⟨rfl, hsecond⟩) | ⟨⟨-, hb⟩, hlone⟩
  · have hne {s : List Char} (hs : s ⊆ ['-', '?', ':', ',', '[', ']', '\x7b', '\x7d', '#', '&',
        '*', '!', '|', '>', '\'', '"', '%', '@', '\x60']) : ∀ a ∈ s, b ≠ a := by
      rintro a ha rfl
      rw [List.contains_iff_mem.mpr (hs ha)] at hsign
      cases hsign
    have hrest : ∀ a ∈ ['-', '?', ':'], b ≠ a := hne (by decide)
    simp only [List.forall_mem_cons] at hrest
    exact ⟨hne (by decide), fun hdash => absurd hdash hrest.1,
      fun hmark => absurd hmark (not_or.mpr ⟨hrest.2.1, hrest.2.2.1⟩)⟩
  · refine ⟨?_, fun _ => hsecond, fun hmark => absurd hmark (by decide)⟩
    exact List.forall_iff_forall_mem.mp (by decide)
  · refine ⟨?_, fun hdash => ?_, fun _ => hlone⟩
    · rcases hb with rfl | rfl <;> exact List.forall_iff_forall_mem.mp (by decide)
    · rcases hb with rfl | rfl <;> exact absurd hdash (by decide)

/-- A text that is a plain scalar begins one where it stands in front of a gap. -/
theorem startsPlain_of_isPlainText (hv : IsPlainText v) (hrest : c.rest = v ++ y) :
    startsPlain false c = true ∧ (c.head? = some '-' → c.isLone = false) := by
  obtain ⟨b, w, hcons, hgap, -, -, -⟩ := exists_of_startsPlain hv.begins
  obtain rfl : v = b :: w := hcons
  have hhead : c.head? = some b := by rw [Cursor.head?, hrest]; rfl
  have hlone : c.isLone = isWordEnd (w ++ y) := by rw [Cursor.isLone, hrest]; rfl
  have hsecond : c.second? = (w ++ y).head? := by rw [Cursor.second?, hrest]; rfl
  obtain ⟨hsign, hdash, hmark⟩ := ne_sign_of_startsPlain hv.begins (b := b) rfl
  have hbegins := hv.begins
  rw [hhead]
  cases w with
  | nil =>
      have hne : b ≠ '-' := fun heq => hv.ne_dash (by rw [heq])
      have hdash : (b == '-') = false := beq_eq_false_iff_ne.mpr hne
      have hmark : (b == '?' || b == ':') = false := by
        refine Bool.eq_false_iff.mpr fun heq => ?_
        simp only [Bool.or_eq_true, beq_iff_eq] at heq
        cases hmark heq
      refine ⟨?_, fun heq => absurd (Option.some.inj heq) hne⟩
      have hsingle : ({ rest := [b] } : Cursor).head? = some b := rfl
      rw [startsPlain, hsingle] at hbegins
      rw [startsPlain, hhead]
      simp only [hdash, hmark, Bool.false_and, Bool.and_false, Bool.or_false] at hbegins ⊢
      exact hbegins
  | cons a w =>
      have hsame₁ : c.isLone = ({ rest := b :: a :: w } : Cursor).isLone := hlone
      have hsame₂ : c.second? = ({ rest := b :: a :: w } : Cursor).second? := hsecond
      refine ⟨?_, fun heq => ?_⟩
      · rw [startsPlain, hhead, hsame₁, hsame₂]
        exact hbegins
      · have hblank : isBlank a = false := hdash (Option.some.inj heq)
        have hbreak : isBreak a = false := (staysPlain_cons (staysPlain_cons hv.stays).2.2.2).1
        rw [hlone, List.cons_append, isWordEnd, hblank, hbreak]
        rfl

/-- **A text that is a plain scalar is found** where it stands in front of a gap. -/
theorem scan_of_isPlainText {indent : Nat} (hv : IsPlainText v)
    (hrest : c.rest = v ++ y) (hcolumn : 1 ≤ c.column) :
    scan false indent c = (readPlain false indent c).map fun p => (.plain p.1 p.2.1, p.2.2) := by
  obtain ⟨hstarts, hdash⟩ := startsPlain_of_isPlainText hv hrest
  obtain ⟨b, w, hcons, -⟩ := exists_of_startsPlain hstarts
  have hhead : c.head? = some b := by rw [Cursor.head?, hcons]; rfl
  obtain ⟨hsign, -, hmark⟩ := ne_sign_of_startsPlain hstarts hhead
  have hplace (m : Char) : c.isMark m = false := by
    have hne : (c.column == 0) = false := beq_eq_false_iff_ne.mpr (by omega)
    rw [Cursor.isMark, hne]
    rfl
  have hne : c.column ≠ 0 := by omega
  simp only [List.forall_mem_cons] at hsign
  obtain ⟨h₁, h₂, h₃, h₄, h₅, -, h₆, h₇, h₈, h₉, h₁₀, h₁₁, h₁₂, -⟩ := hsign
  have hentry : ¬ (b = '-' ∧ c.isLone = true) := by
    rintro ⟨rfl, hlone⟩
    rw [hdash hhead] at hlone
    cases hlone
  have hsingle {m : Char} (hm : m = '?' ∨ m = ':') :
      ¬ (b = m ∧ (false = true ∨ c.isLone = true)) := by
    rintro ⟨rfl, hlone⟩
    rw [hmark hm] at hlone
    simp at hlone
  rw [scan, hhead]
  simp only
  rw [if_neg fun h => hne h.1, hplace, hplace, if_neg Bool.false_ne_true,
    if_neg Bool.false_ne_true, if_neg h₂, if_neg h₄, if_neg h₃, if_neg h₅, if_neg h₁, if_neg hentry,
    if_neg (hsingle (.inl rfl)), if_neg (hsingle (.inr rfl)), if_neg h₇, if_neg h₆, if_neg h₈,
    if_neg fun h => h₉ h.1, if_neg fun h => h₁₀ h.1, if_neg h₁₁, if_neg h₁₂, if_pos hstarts]

/-! ### The two texts -/

/-- Inside brackets, a marker is no plain scalar. -/
theorem IsMarker.not_flow (hr : IsMarker r) {indent : Nat} {broken : Bool}
    (hstarts : startsPlain true c = true) (hmark : c.isDocumentMark = false)
    (hrest : c.rest = r ++ y) : readPlain true indent c ≠ .ok (r, broken, d) := by
  intro hread
  obtain ⟨r', rfl, -⟩ := hr.opens
  obtain ⟨w, g, -, hword, -, hread⟩ := exists_word_of_readPlain hstarts hmark hread
  rw [hrest] at hword
  obtain rfl : w = ['$'] := (Except.ok.inj hword).symm
  have hnext : (c.advance 1).rest = '\x7b' :: (r' ++ y) := by rw [Cursor.advance, hrest]; rfl
  rw [List.length_singleton, plainAfter, hnext] at hread
  cases hread

theorem IsMarker.startsWord (hr : IsMarker r) : startsWord r = true := by
  obtain ⟨r', rfl, -⟩ := hr.opens
  rfl

/-- What two texts have where a marker stands in the first one and a plain scalar in the second. -/
def Tails.fill (y : List Char) (hr : IsMarker r) (hv : IsPlainText v) : Tails where
  rest₁ := r ++ y
  rest₂ := v ++ y
  index₁ := 0
  index₂ := 0
  solid := by
    obtain ⟨r', rfl, -⟩ := hr.opens
    obtain ⟨b, w, hrest, hgap, -, -, hhash⟩ := exists_of_startsPlain hv.begins
    obtain rfl : v = b :: w := hrest
    obtain ⟨hblank, hbreak⟩ := Bool.or_eq_false_iff.mp hgap
    exact .inr ⟨_, b, _, rfl, rfl, hblank, hbreak, hhash⟩
  start := Iff.rfl

/-- A marker in a text that has none in front of it is behind all that has no dollar sign. -/
theorem infix_of_infix_append {a : Char} {u w s : List Char} (hu : a ∉ u)
    (h : a :: w <:+: u ++ s) : a :: w <:+: s := by
  induction u with
  | nil => exact h
  | cons b u ih =>
      rcases List.infix_cons_iff.mp h with hfront | hinside
      · obtain ⟨heq, -⟩ := List.cons_prefix_cons.mp hfront
        exact absurd List.mem_cons_self (heq ▸ hu)
      · exact ih (fun hmem => hu (List.mem_cons_of_mem b hmem)) hinside

/-- Who is past the beginning of a marker finds no other one. -/
theorem not_infix_of_past {hr : IsMarker r} {hv : IsPlainText v} (hy : ¬ r <:+: y)
    (h : Past (.fill y hr hv) c) : ¬ r <:+: c.rest := by
  obtain ⟨hsuffix, hlt⟩ := h
  obtain ⟨r', rfl, hdollar⟩ := hr.opens
  intro hinside
  have htail : c.rest <:+ ('\x7b' :: r') ++ y := by
    rcases List.suffix_cons_iff.mp (hsuffix : c.rest <:+ '$' :: (('\x7b' :: r') ++ y))
      with heq | htail
    · rw [heq] at hlt
      exact absurd hlt (Nat.lt_irrefl _)
    · exact htail
  refine hy (infix_of_infix_append (fun hmem => ?_) (hinside.trans htail.isInfix))
  rcases List.mem_cons.mp hmem with heq | hmem
  · exact absurd heq (by decide)
  · exact hdollar hmem

/-- No marker stands in front of the marker. -/
theorem not_prefix_of_within {before : List Char} {hr : IsMarker r} {hv : IsPlainText v}
    (hbefore : ¬ r <:+: before) (h : Within (.fill y hr hv) c₁ c₂)
    (hsuffix : c₁.rest <:+ before ++ (r ++ y)) : ¬ r <+: c₁.rest := by
  obtain ⟨x, hx, hroom⟩ := h
  have hrest : c₁.rest = x ++ (r ++ y) := hx.rest₁
  intro hfront
  rw [hrest] at hfront hsuffix
  have hne : r ++ y ≠ [] := by
    obtain ⟨r', rfl, -⟩ := hr.opens
    exact List.cons_ne_nil _ _
  have hblank : endsBlank x = true := hroom.resolve_left hne
  rcases List.prefix_or_prefix_of_prefix hfront (List.prefix_append x (r ++ y)) with hrx | hxr
  · have hxbefore : x <:+ before := by
      obtain ⟨u, hu⟩ := hsuffix
      rw [← List.append_assoc] at hu
      exact ⟨u, List.append_cancel_right hu⟩
    exact hbefore (hrx.isInfix.trans hxbefore.isInfix)
  · obtain ⟨b, hlast, hb⟩ := (Option.any_eq_true _ _).mp hblank
    have hsolid := hr.solid b (hxr.subset (List.mem_of_getLast? hlast))
    rw [isGapChar, hb] at hsolid
    cases hsolid

/-- What is done with a plain scalar outside brackets leaves the possible keys on the line. -/
theorem exists_of_pushNode {b : Token} {allowed : Bool} (h : l.pushNode b allowed = .ok l')
    (hl : l.IsReady) (hflow : l.inFlow = false) :
    l'.inFlow = false ∧ ∀ k, some k ∈ l'.keys → k.place.line = l.cursor.line := by
  rw [pushNode] at h
  obtain ⟨m, hsave, h⟩ := exists_of_bind_ok h
  have hkeys : l'.keys = m.keys := by
    cases h
    rfl
  rw [inFlow, hkeys]
  refine ⟨(inFlow_of_saveKey hsave).trans hflow, fun k hk => ?_⟩
  rw [saveKey_eq_ok_iff] at hsave
  split at hsave
  · obtain ⟨-, rfl⟩ := hsave
    rcases List.mem_cons.mp hk with heq | hk
    · cases heq
      rfl
    · exact hl.lines k (List.mem_of_mem_drop hk)
  · exact hl.lines k (hsave ▸ hk)

/-- The marker is read only as a plain scalar outside brackets, whose line it begins. -/
theorem exists_of_scan_marker (hr : IsMarker r) (hy : isWordEnd y = true)
    (hrest : l.cursor.rest = r ++ y) (hcolumn : 1 ≤ l.cursor.column) (hready : l.IsReady)
    {e : Event} (hscan : scan l.inFlow l.innerColumn l.cursor = .ok (e, d))
    (he : e.token? = some (.scalar true r)) :
    l.inFlow = false ∧ ∃ m g, y.length ≤ m ∧ e = .plain r (!g.breaks.isEmpty) ∧
      plainAfter false l.innerColumn m r {} (l.cursor.advance r.length) = .ok (r, g, d) := by
  obtain ⟨hstarts, hmark, broken, hplain, rfl⟩ := exists_of_scan_plain hscan he
  have hflow : l.inFlow = false := by
    refine Bool.eq_false_iff.mpr fun hflow => ?_
    rw [hflow] at hstarts hplain
    exact hr.not_flow hstarts hmark hrest hplain
  rw [hflow] at hplain
  obtain ⟨m, hm, hread⟩ :=
    exists_readPlain_eq hr.stays hr.startsWord hy hrest hcolumn (hready.column hflow)
  rw [hread] at hplain
  obtain ⟨⟨text, g, c⟩, hafter, heq⟩ := exists_of_map_eq_ok hplain
  simp only [Prod.mk.injEq] at heq
  obtain ⟨rfl, rfl, rfl⟩ := heq
  exact ⟨hflow, m, g, hm, rfl, hafter⟩

/-- A text that is a plain scalar is found as it goes on behind it. -/
theorem exists_scan_of_isPlainText {indent : Nat} (hv : IsPlainText v) (hy : isWordEnd y = true)
    (hrest : c.rest = v ++ y) (hcolumn : 1 ≤ c.column) (hindent : indent ≤ c.column + 1) :
    ∃ m, y.length ≤ m ∧ ∀ g d,
      plainAfter false indent m v {} (c.advance v.length) = .ok (v, g, d) →
        scan false indent c = .ok (.plain v (!g.breaks.isEmpty), d) := by
  obtain ⟨m, hm, hread⟩ := exists_readPlain_eq hv.stays (startsWord_of_startsPlain hv.begins) hy
    hrest hcolumn hindent
  refine ⟨m, hm, fun g d hafter => ?_⟩
  rw [scan_of_isPlainText hv hrest hcolumn, hread, hafter]
  rfl

/-- **At the marker**, one lexer reads the marker and the other one the scalar in its place, and
both go on with what comes behind. -/
theorem read_place (hr : IsMarker r) (hv : IsPlainText v) (hy : endsLine y = true)
    (hclear : ¬ r <:+: y) (hts : .scalar true r ∈ ts) (h : Together (.fill y hr hv) r v l₁ l₂)
    (hready : l₁.IsReady) (hplace : ¬ Within (.fill y hr hv) l₁.cursor l₂.cursor)
    (hn : l₁.cursor.rest.length ≤ n) (hk : l₂.cursor.rest.length ≤ k) :
    Follows r v ts (l₁.readToken >>= goOn n) (l₂.readToken >>= goOn k) := by
  intro hread
  obtain ⟨hx, ⟨hcolumn, hindex⟩, -⟩ := h.kept.within_or.resolve_left hplace
  have hrest₁ : l₁.cursor.rest = r ++ y := hx.rest₁
  have hrest₂ : l₂.cursor.rest = v ++ y := hx.rest₂
  have hne : (Tails.fill y hr hv).rest₁ ≠ [] := by
    obtain ⟨r', rfl, -⟩ := hr.opens
    exact List.cons_ne_nil _ _
  have hend := isWordEnd_of_endsLine hy
  obtain ⟨l₁', htoken, hgo⟩ := exists_of_bind_ok hread
  have hground := grounded_of_readToken htoken hready.grounded
  obtain ⟨e, d₁, m₁, hscan, hupdate, rfl, hsuffix⟩ := exists_of_readToken htoken
  by_cases hmarker : e.token? = some (.scalar true r)
  swap
  · -- Another token goes past the beginning of the marker, which is then never found.
    have hgone : Past (.fill y hr hv) d₁ := (hx.past_advance hne (Nat.le_refl 1)).of_suffix hsuffix
    refine absurd hts
      (not_mem_of_goOn (l := m₁.moveTo d₁) hr (not_infix_of_past hclear hgone) ?_ hgo)
    exact fun hmem => ((onward_update hupdate).tokens r hmem).elim (h.fresh hne) hmarker
  obtain ⟨hflow, m, g, hm, rfl, hafter⟩ :=
    exists_of_scan_marker hr hend hrest₁ hcolumn hready hscan hmarker
  have hindent : l₁.innerColumn ≤ l₁.cursor.column + 1 := hready.column hflow
  have hsame : l₂.cursor.column = l₁.cursor.column := h.kept.column
  have hindex₂ : l₂.cursor.index = l₁.cursor.index := by
    obtain ⟨i, hi₁, hi₂⟩ := hx.index
    exact hi₂.trans hi₁.symm
  have hindent₂ : l₁.innerColumn ≤ l₂.cursor.column + 1 := hsame ▸ hindent
  obtain ⟨j, hj, hfound⟩ :=
    exists_scan_of_isPlainText hv hend hrest₂ (hsame ▸ hcolumn) hindent₂
  -- Both texts go on behind the scalar, at different places of the same line.
  have hlength {w : List Char} (hw : startsWord w = true) : 1 ≤ w.length := by
    obtain ⟨b, w, rfl, -⟩ := exists_of_startsWord hw
    exact Nat.succ_le_succ (Nat.zero_le _)
  have hlength₁ := hlength hr.startsWord
  have hlength₂ := hlength (startsWord_of_startsPlain hv.begins)
  have hbehind₁ := Cursor.rest_advance_append hrest₁
  obtain ⟨d₂, hafter₂, hbehind⟩ := plainAfter_endsLine hy hbehind₁
    (Cursor.rest_advance_append hrest₂) h.kept.line
    (by simp only [Cursor.advance]; omega) (by simp only [Cursor.advance]; omega)
    (by simp only [Cursor.advance]; omega) (by simp only [Cursor.advance]; omega) hm hj hafter v
  have hscan₂ : scan l₂.inFlow l₂.innerColumn l₂.cursor =
      .ok (.plain v (!g.breaks.isEmpty), d₂) := by
    rw [h.twin.inFlow, hflow, innerColumn, h.twin.indent]
    exact hfound g d₂ hafter₂
  obtain ⟨m₂, hupdate₂, htwin⟩ := h.twin.update h.kept hupdate
  rw [Event.substitute, if_pos rfl] at hupdate₂
  obtain ⟨hflow', hlines⟩ := exists_of_pushNode hupdate hready hflow
  have hclear' : ¬ r <:+: d₁.rest := fun hinside =>
    hclear (hinside.trans (hbehind₁ ▸ (exists_of_plainAfter (by rw [hbehind₁]; exact hm)
      hafter).1).isInfix)
  rw [readToken_eq_ok_iff.mpr ⟨_, d₂, m₂, hscan₂, hupdate₂, rfl⟩, ok_bind]
  exact goOn_behind hr hts (htwin.moveTo d₁ d₂) hground hflow' hlines (hbehind.imp_left And.left)
    hclear' (length_lt_of_scan hscan hn) (length_lt_of_scan hscan₂ hk) hgo

/-- **The tokens of the two texts** are the same but for the scalar: when a marker that stands
behind a blank at the end of a line is a plain scalar, so is any text in its place that is one. -/
theorem tokens_fill {before : List Char} (hr : IsMarker r) (hv : IsPlainText v)
    (hbefore : endsBlank before = true) (hy : endsLine y = true) (hfirst : ¬ r <:+: before)
    (hlast : ¬ r <:+: y) (hts : .scalar true r ∈ ts)
    (htokens : tokens (before ++ r ++ y) = .ok ts) :
    tokens (before ++ v ++ y) = .ok (ts.map (Token.substitute r v)) := by
  rw [List.append_assoc] at htokens ⊢
  rw [tokens] at htokens ⊢
  split at htokens
  next hallowed =>
    simp only [List.all_append, Bool.and_eq_true] at hallowed
    have hallowed₂ : (before ++ (v ++ y)).all isAllowed = true := by
      simp only [List.all_append, Bool.and_eq_true]
      exact ⟨hallowed.1, hv.allowed, hallowed.2.2⟩
    have hne {s : List Char} : before ++ s ≠ [] := by
      refine List.append_ne_nil_of_left_ne_nil ?_ s
      rintro rfl
      cases hbefore
    have hgo (s : List Char) (n : Nat) :
        run n { cursor := { rest := before ++ s } } =
          goOn n { cursor := { rest := before ++ s } } := by
      rw [goOn, List.isEmpty_eq_false_iff.mpr hne]
      rfl
    have hpast : ∀ c, Past (.fill y hr hv) c → ¬ r <:+: c.rest := fun _ => not_infix_of_past hlast
    have hstart : Together (.fill y hr hv) r v { cursor := { rest := before ++ (r ++ y) } }
        { cursor := { rest := before ++ (v ++ y) } } :=
      ⟨⟨rfl, rfl, rfl, rfl, .cons .none .nil⟩,
        ⟨before, ⟨rfl, rfl, rfl, rfl, 0, rfl, rfl⟩, .inr (.inl hbefore)⟩,
        fun _ => List.not_mem_nil, fun _ _ hwithin hsuffix =>
          not_prefix_of_within hfirst hwithin hsuffix⟩
    rw [if_pos hallowed₂, hgo]
    rw [hgo] at htokens
    exact goOn_together hr hts hpast (fun m _ _ _ _ h hready => read_twin hr hts hpast
      (fun _ _ _ _ h hready hplace => read_place hr hv hy hlast hts h hready hplace) h hready)
      hstart rfl (fun _ => Nat.lt_succ_self _) (fun _ => Nat.lt_succ_self _) htokens
  · cases htokens

end RealmDirectory.Yaml
