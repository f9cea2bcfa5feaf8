import RealmDirectory.Proofs.Yaml.Names

/-!
# Reading in two parts

What a step of the lexer does to its state has two parts: what it finds in the text, which depends
on the text and on little else, and what it then does with it, which no longer looks at the text.
The first part is local like all readers.

## Main definitions

* `Event`, `scan`: what is found at a place, and the place behind it.
* `Event.update`: what is done with it.
* `gap`: the gap in front of the next token.

## Main results

* `Lexer.readToken_eq_ok_iff`, `Lexer.skipGap_eq`: steps in two parts.
* `agree_scan`, `agree_gap`: the parts that look at the text are local.
-/

namespace RealmDirectory.Yaml

/-- What a lexer finds at a place. -/
inductive Event where
  /-- The end of the text. -/
  | nothing
  /-- A token between documents, or a directive. -/
  | between (t : Token)
  /-- An opening bracket. -/
  | openFlow (t : Token)
  /-- A closing bracket. -/
  | closeFlow (t : Token)
  /-- A token of one character, behind which a key may begin or not. -/
  | mark (t : Token) (allowed : Bool)
  /-- A dash in front of an entry. -/
  | entry
  /-- A question mark in front of a key. -/
  | key
  /-- A colon in front of a value. -/
  | value
  /-- A token that may begin a key. -/
  | node (t : Token)
  /-- A block of lines. -/
  | block (text : List Char)
  /-- A scalar without quotes, and whether a line break follows it. -/
  | plain (text : List Char) (broken : Bool)

namespace Lexer

/-- Adds a token that ends what could have been a key. -/
def pushMark (t : Token) (allowed : Bool) (l : Lexer) : Except Fault Lexer := do
  let l ← l.dropKey
  .ok ((l.allowKey allowed).push t)

/-- Adds a token that may begin a key. -/
def pushNode (t : Token) (allowed : Bool) (l : Lexer) : Except Fault Lexer := do
  let l ← l.saveKey
  .ok ((l.allowKey allowed).push t)

end Lexer

namespace Event

open Lexer

/-- What a lexer does with what it finds; it does not move. -/
def update : Event → Lexer → Except Fault Lexer
  | nothing, l => .ok l
  | between t, l => (l.closeBlocks (-1)).pushMark t false
  | openFlow t, l => do
      let l ← l.saveKey
      .ok ({ l with keys := none :: l.keys, keyAllowed := true }.push t)
  | closeFlow t, l => do
      let l ← l.dropKey
      .ok ({ l with
        keys := if l.inFlow then l.keys.drop 1 else l.keys
        keyAllowed := false }.push t)
  | mark t allowed, l => l.pushMark t allowed
  | entry, l =>
      if l.inFlow then l.pushMark .blockEntry true
      else if !l.keyAllowed then .error .entryNotAllowed
      else (l.openBlock l.cursor.column l.tokens.length .blockSequence).pushMark .blockEntry true
  | key, l =>
      if l.inFlow then l.pushMark .key false
      else if !l.keyAllowed then .error .keyNotAllowed
      else (l.openBlock l.cursor.column l.tokens.length .blockMapping).pushMark .key true
  | value, l =>
      match l.keys with
      | some k :: outer =>
          let tokens := l.tokens.take k.token ++ .key :: l.tokens.drop k.token
          let l := { l with tokens, keys := none :: outer, keyAllowed := false }
          .ok ((l.openBlock k.place.column k.token .blockMapping).push .value)
      | _ =>
          if l.inFlow then .ok ((l.allowKey false).push .value)
          else if !l.keyAllowed then .error .valueNotAllowed
          else
            .ok (((l.openBlock l.cursor.column l.tokens.length .blockMapping).allowKey true).push
              .value)
  | node t, l => l.pushNode t false
  | block text, l => l.pushMark (.scalar false text) true
  | plain text broken, l => l.pushNode (.scalar true text) broken

end Event

/-! ### Tokens -/

open Lexer

/-- Finds what begins at a place, and the place behind it. -/
def scan (flow : Bool) (indent : Nat) (c : Cursor) : Except Fault (Event × Cursor) :=
  match c.head? with
  | none => .ok (.nothing, c)
  | some b =>
      if c.column = 0 ∧ b = '%' then (readDirective c).map fun p => (.between p.1, p.2)
      else if c.isMark '-' then .ok (.between .documentStart, c.advance 3)
      else if c.isMark '.' then .ok (.between .documentEnd, c.advance 3)
      else if b = '[' then .ok (.openFlow .flowSequence, c.advance 1)
      else if b = '\x7b' then .ok (.openFlow .flowMapping, c.advance 1)
      else if b = ']' then .ok (.closeFlow .flowSequenceEnd, c.advance 1)
      else if b = '\x7d' then .ok (.closeFlow .flowMappingEnd, c.advance 1)
      else if b = ',' then .ok (.mark .flowEntry true, c.advance 1)
      else if b = '-' ∧ c.isLone then .ok (.entry, c.advance 1)
      else if b = '?' ∧ (flow ∨ c.isLone) then .ok (.key, c.advance 1)
      else if b = ':' ∧ (flow ∨ c.isLone) then .ok (.value, c.advance 1)
      else if b = '*' then (readName c).map fun p => (.node (.alias p.1), p.2)
      else if b = '&' then (readName c).map fun p => (.node (.anchor p.1), p.2)
      else if b = '!' then (readTag flow c).map fun p => (.node p.1, p.2)
      else if b = '|' ∧ !flow then (readBlock false indent c).map fun p => (.block p.1, p.2)
      else if b = '>' ∧ !flow then (readBlock true indent c).map fun p => (.block p.1, p.2)
      else if b = '\'' then
        (readQuoted false c).map fun p => (.node (.scalar false p.1), p.2)
      else if b = '"' then (readQuoted true c).map fun p => (.node (.scalar false p.1), p.2)
      else if startsPlain flow c then
        (readPlain flow indent c).map fun p => (.plain p.1 p.2.1, p.2.2)
      else .error .unexpectedCharacter

/-! ### What a lexer does not move -/

namespace Lexer

variable {l l' : Lexer}

/-- The innermost possible key may be forgotten unless it has to be a key; nothing else changes. -/
theorem dropKey_eq_ok_iff :
    l.dropKey = .ok l' ↔ (∀ k, l.keys.head? = some (some k) → k.required = false) ∧
      l' = { l with keys := l.keys.modifyHead fun _ => none } := by
  have hsame (hkeys : l.keys.modifyHead (fun _ => none) = l.keys) :
      { l with keys := l.keys.modifyHead fun _ => none } = l := by rw [hkeys]
  rw [dropKey]
  rcases hkeys : l.keys with _ | ⟨_ | k, outer⟩
  · rw [hkeys] at hsame
    rw [hsame rfl]
    exact ⟨fun h => ⟨fun k hk => (by cases hk), (Except.ok.inj h).symm⟩, fun h => h.2 ▸ rfl⟩
  · rw [hkeys] at hsame
    rw [hsame rfl]
    exact ⟨fun h => ⟨fun k hk => (by cases hk), (Except.ok.inj h).symm⟩, fun h => h.2 ▸ rfl⟩
  · cases hrequired : k.required with
    | true =>
        simp only [hrequired, if_true]
        refine iff_of_false error_ne_ok fun h => ?_
        rw [h.1 k rfl] at hrequired
        cases hrequired
    | false =>
        simp only [hrequired, Bool.false_eq_true, if_false]
        refine ⟨fun h => ⟨fun k' hk => ?_, (Except.ok.inj h).symm⟩, fun h => h.2 ▸ rfl⟩
        rwa [← Option.some.inj (Option.some.inj hk)]

/-- A possible key is remembered where one may begin, in the place of the one before. -/
theorem saveKey_eq_ok_iff :
    l.saveKey = .ok l' ↔
      if l.keyAllowed then
        (∀ k, l.keys.head? = some (some k) → k.required = false) ∧
          l' = { l with keys := some ⟨l.tokens.length,
            !l.inFlow && l.indent == (l.cursor.column : Int), l.cursor⟩ :: l.keys.drop 1 }
      else l' = l := by
  rw [saveKey]
  by_cases hallowed : l.keyAllowed = true
  · have hnot : ¬ (!l.keyAllowed) = true := by rw [hallowed]; decide
    rw [if_neg hnot, if_pos hallowed]
    have hdrop (keys : List (Option PossibleKey)) :
        (keys.modifyHead fun _ => none).drop 1 = keys.drop 1 := by
      cases keys <;> rfl
    constructor
    · intro h
      obtain ⟨l₁, hl₁, h⟩ := exists_of_bind_ok h
      obtain ⟨hrequired, rfl⟩ := dropKey_eq_ok_iff.mp hl₁
      refine ⟨hrequired, ?_⟩
      rw [hdrop] at h
      exact (Except.ok.inj h).symm
    · rintro ⟨hrequired, rfl⟩
      rw [dropKey_eq_ok_iff.mpr ⟨hrequired, rfl⟩, ok_bind, hdrop]
  · have hnot : (!l.keyAllowed) = true := by simpa using hallowed
    rw [if_pos hnot, if_neg hallowed]
    exact ⟨fun h => (Except.ok.inj h).symm, fun h => h ▸ rfl⟩

theorem cursor_of_dropKey (h : l.dropKey = .ok l') : l'.cursor = l.cursor := by
  obtain ⟨-, rfl⟩ := dropKey_eq_ok_iff.mp h
  rfl

theorem indent_of_dropKey (h : l.dropKey = .ok l') : l'.indent = l.indent := by
  obtain ⟨-, rfl⟩ := dropKey_eq_ok_iff.mp h
  rfl

theorem cursor_of_saveKey (h : l.saveKey = .ok l') : l'.cursor = l.cursor := by
  rw [saveKey_eq_ok_iff] at h
  split at h
  · rw [h.2]
  · rw [h]

theorem indent_of_saveKey (h : l.saveKey = .ok l') : l'.indent = l.indent := by
  rw [saveKey_eq_ok_iff] at h
  split at h
  · rw [h.2]
  · rw [h]

theorem inFlow_of_saveKey (h : l.saveKey = .ok l') : l'.inFlow = l.inFlow := by
  rw [saveKey_eq_ok_iff] at h
  split at h
  · rw [h.2, inFlow, inFlow]
    cases l.keys <;> simp
  · rw [h]

@[simp]
theorem cursor_openBlock (column position : Nat) (t : Token) (l : Lexer) :
    (l.openBlock column position t).cursor = l.cursor := by
  rw [openBlock]
  split <;> rfl

@[simp]
theorem cursor_closeBlocks (column : Int) (l : Lexer) :
    (l.closeBlocks column).cursor = l.cursor := by
  rw [closeBlocks]
  split <;> rfl

/-! ### Steps in two parts -/

/-- An event is handled, and the lexer moves to the place behind it. -/
def Handles (l : Lexer) (m : Except Fault (Event × Cursor)) (l' : Lexer) : Prop :=
  ∃ e c l₁, m = .ok (e, c) ∧ e.update l = .ok l₁ ∧ l' = l₁.moveTo c

theorem handles_ok_iff {e : Event} {c : Cursor} :
    l.Handles (.ok (e, c)) l' ↔ (e.update l).map (fun l => l.moveTo c) = .ok l' := by
  constructor
  · rintro ⟨e, c, l₁, h, hupdate, rfl⟩
    cases h
    rw [hupdate]
    rfl
  · intro h
    cases hupdate : e.update l with
    | error f =>
        rw [hupdate] at h
        cases h
    | ok l₁ =>
        rw [hupdate] at h
        cases h
        exact ⟨e, c, l₁, rfl, hupdate, rfl⟩

/-- What is read and then handled. -/
theorem handles_map_iff {α : Type} {m : Except Fault α} {event : α → Event}
    {place : α → Cursor} {f : α → Except Fault Lexer}
    (h : ∀ a, f a = .ok l' ↔ ((event a).update l).map (fun l => l.moveTo (place a)) = .ok l') :
    m >>= f = .ok l' ↔ l.Handles (m.map fun a => (event a, place a)) l' := by
  cases m with
  | error e =>
      constructor
      · intro h
        cases h
      · rintro ⟨_, _, _, h, -⟩
        cases h
  | ok a => exact (h a).trans handles_ok_iff.symm

theorem readMark_eq (t : Token) (allowed : Bool) (l : Lexer) :
    l.readMark t allowed = (l.pushMark t allowed).map fun l' => l'.moveTo (l.cursor.advance 1) := by
  rw [readMark, pushMark]
  cases hdrop : l.dropKey with
  | error f => rfl
  | ok l₁ =>
      rw [← cursor_of_dropKey hdrop]
      rfl

theorem readBetween_eq (t : Token) (c : Cursor) (l : Lexer) :
    l.readBetween t c = ((Event.between t).update l).map fun l => l.moveTo c := by
  rw [readBetween, Event.update, pushMark]
  cases (l.closeBlocks (-1)).dropKey <;> rfl

theorem openFlow_eq (t : Token) (l : Lexer) :
    l.openFlow t = ((Event.openFlow t).update l).map fun l' => l'.moveTo (l.cursor.advance 1) := by
  rw [openFlow, Event.update]
  cases hsave : l.saveKey with
  | error f => rfl
  | ok l₁ =>
      rw [← cursor_of_saveKey hsave]
      rfl

theorem closeFlow_eq (t : Token) (l : Lexer) :
    l.closeFlow t =
      ((Event.closeFlow t).update l).map fun l' => l'.moveTo (l.cursor.advance 1) := by
  rw [closeFlow, Event.update]
  cases hdrop : l.dropKey with
  | error f => rfl
  | ok l₁ =>
      rw [← cursor_of_dropKey hdrop]
      rfl

theorem readEntry_eq (l : Lexer) :
    l.readEntry = (Event.entry.update l).map fun l' => l'.moveTo (l.cursor.advance 1) := by
  rw [readEntry, Event.update]
  split
  · exact readMark_eq _ _ _
  · split
    · rfl
    · rw [readMark_eq, cursor_openBlock]

theorem readKey_eq (l : Lexer) :
    l.readKey = (Event.key.update l).map fun l' => l'.moveTo (l.cursor.advance 1) := by
  rw [readKey, Event.update]
  split
  · exact readMark_eq _ _ _
  · split
    · rfl
    · rw [readMark_eq, cursor_openBlock]

theorem readValue_eq (l : Lexer) :
    l.readValue = (Event.value.update l).map fun l' => l'.moveTo (l.cursor.advance 1) := by
  rw [readValue, Event.update]
  have hlate : (if l.inFlow then .ok (((l.allowKey false).push .value).moveTo (l.cursor.advance 1))
      else if !l.keyAllowed then .error .valueNotAllowed
      else
        let l := l.openBlock l.cursor.column l.tokens.length .blockMapping
        .ok (((l.allowKey true).push .value).moveTo (l.cursor.advance 1)) : Except Fault Lexer) =
      (if l.inFlow then .ok ((l.allowKey false).push .value)
      else if !l.keyAllowed then .error .valueNotAllowed
      else
        .ok (((l.openBlock l.cursor.column l.tokens.length .blockMapping).allowKey true).push
          .value) : Except Fault Lexer).map fun l' => l'.moveTo (l.cursor.advance 1) := by
    split
    · rfl
    · split
      · rfl
      · simp only [Except.map, cursor_openBlock]
  rcases l.keys with _ | ⟨_ | k, outer⟩
  · exact hlate
  · exact hlate
  · simp only [Except.map, cursor_openBlock]

theorem handles_ite {p : Prop} [Decidable p] {m₁ m₂ : Except Fault Lexer}
    {s₁ s₂ : Except Fault (Event × Cursor)} (h₁ : m₁ = .ok l' ↔ l.Handles s₁ l')
    (h₂ : m₂ = .ok l' ↔ l.Handles s₂ l') :
    (if p then m₁ else m₂) = .ok l' ↔ l.Handles (if p then s₁ else s₂) l' := by
  split
  · exact h₁
  · exact h₂

/-- What is handled is read in the end, and what could have been a key is settled first. -/
theorem bind_bind_eq_ok_iff {α β γ : Type} {m : Except Fault α} {s : Except Fault β}
    {f : α → β → γ} {r : γ} :
    (m >>= fun a => s >>= fun b => .ok (f a b)) = .ok r ↔
      (s >>= fun b => m >>= fun a => .ok (f a b)) = .ok r := by
  cases m with
  | error e =>
      cases s with
      | error e' => exact iff_of_false error_ne_ok error_ne_ok
      | ok b => exact Iff.rfl
  | ok a => cases s <;> exact Iff.rfl

theorem readNode_eq_ok_iff {read : Cursor → Except Fault (Token × Cursor)} :
    l.readNode read = .ok l' ↔ l.Handles ((read l.cursor).map fun p => (.node p.1, p.2)) l' := by
  have hread : l.readNode read = .ok l' ↔
      (l.saveKey >>= fun l₁ => read l.cursor >>= fun p =>
        .ok (((l₁.allowKey false).push p.1).moveTo p.2)) = .ok l' := by
    rw [readNode]
    cases hsave : l.saveKey with
    | error f => rfl
    | ok l₁ => rw [ok_bind, ok_bind, cursor_of_saveKey hsave]
  rw [hread, bind_bind_eq_ok_iff]
  refine handles_map_iff fun p => ?_
  rw [Event.update, pushNode]
  cases l.saveKey <;> rfl

theorem readPlainScalar_eq_ok_iff :
    l.readPlainScalar = .ok l' ↔
      l.Handles ((readPlain l.inFlow l.innerColumn l.cursor).map fun p =>
        (.plain p.1 p.2.1, p.2.2)) l' := by
  have hread : l.readPlainScalar = .ok l' ↔
      (l.saveKey >>= fun l₁ => readPlain l.inFlow l.innerColumn l.cursor >>= fun p =>
        .ok (((l₁.allowKey p.2.1).push (.scalar true p.1)).moveTo p.2.2)) = .ok l' := by
    rw [readPlainScalar]
    cases hsave : l.saveKey with
    | error f => rfl
    | ok l₁ =>
        rw [ok_bind, ok_bind, cursor_of_saveKey hsave, inFlow_of_saveKey hsave, innerColumn,
          innerColumn, indent_of_saveKey hsave]
  rw [hread, bind_bind_eq_ok_iff]
  refine handles_map_iff fun p => ?_
  rw [Event.update, pushNode]
  cases l.saveKey <;> rfl

theorem readBlockScalar_eq_ok_iff {folded : Bool} :
    l.readBlockScalar folded = .ok l' ↔
      l.Handles ((readBlock folded l.innerColumn l.cursor).map fun p => (.block p.1, p.2)) l' := by
  have hread : l.readBlockScalar folded = .ok l' ↔
      (l.dropKey >>= fun l₁ => readBlock folded l.innerColumn l.cursor >>= fun p =>
        .ok (((l₁.allowKey true).push (.scalar false p.1)).moveTo p.2)) = .ok l' := by
    rw [readBlockScalar]
    cases hdrop : l.dropKey with
    | error f => rfl
    | ok l₁ =>
        rw [ok_bind, ok_bind, cursor_of_dropKey hdrop, innerColumn, innerColumn,
          indent_of_dropKey hdrop]
  rw [hread, bind_bind_eq_ok_iff]
  refine handles_map_iff fun p => ?_
  rw [Event.update, pushMark]
  cases l.dropKey <;> rfl

/-- **Reading a token** is finding it and then handling it. -/
theorem readToken_eq_ok_iff :
    l.readToken = .ok l' ↔ l.Handles (scan l.inFlow l.innerColumn l.cursor) l' := by
  simp only [readToken, scan]
  cases l.cursor.head? with
  | none => exact (handles_ok_iff (e := .nothing)).symm
  | some b =>
      refine handles_ite (handles_map_iff fun p => by rw [readBetween_eq]) ?_
      refine handles_ite (readBetween_eq _ _ _ ▸ handles_ok_iff.symm) ?_
      refine handles_ite (readBetween_eq _ _ _ ▸ handles_ok_iff.symm) ?_
      refine handles_ite (openFlow_eq _ _ ▸ handles_ok_iff.symm) ?_
      refine handles_ite (openFlow_eq _ _ ▸ handles_ok_iff.symm) ?_
      refine handles_ite (closeFlow_eq _ _ ▸ handles_ok_iff.symm) ?_
      refine handles_ite (closeFlow_eq _ _ ▸ handles_ok_iff.symm) ?_
      refine handles_ite
        (readMark_eq _ _ _ ▸ (handles_ok_iff (e := .mark .flowEntry true)).symm) ?_
      refine handles_ite (readEntry_eq _ ▸ handles_ok_iff.symm) ?_
      refine handles_ite (readKey_eq _ ▸ handles_ok_iff.symm) ?_
      refine handles_ite (readValue_eq _ ▸ handles_ok_iff.symm) ?_
      have hname (f : List Char → Token) :
          l.readNode (fun c => (readName c).map fun p => (f p.1, p.2)) = .ok l' ↔
            l.Handles ((readName l.cursor).map fun p => (.node (f p.1), p.2)) l' := by
        rw [readNode_eq_ok_iff]
        cases readName l.cursor <;> rfl
      have hquoted (double : Bool) : l.readQuotedScalar double = .ok l' ↔
          l.Handles ((readQuoted double l.cursor).map fun p =>
            (.node (.scalar false p.1), p.2)) l' := by
        rw [readQuotedScalar, readNode_eq_ok_iff]
        cases readQuoted double l.cursor <;> rfl
      refine handles_ite (hname .alias) (handles_ite (hname .anchor) ?_)
      refine handles_ite readNode_eq_ok_iff ?_
      refine handles_ite readBlockScalar_eq_ok_iff (handles_ite readBlockScalar_eq_ok_iff ?_)
      refine handles_ite (hquoted false) (handles_ite (hquoted true) ?_)
      refine handles_ite readPlainScalar_eq_ok_iff ?_
      refine iff_of_false error_ne_ok ?_
      rintro ⟨_, _, _, h, -⟩
      exact error_ne_ok h

end Lexer

/-! ### Gaps between tokens -/

/-- Passes over blanks, comments and line breaks, for at most `fuel` rounds, and tells whether a
key may begin behind them. -/
def gapFrom (flow : Bool) : Nat → Bool → Cursor → Bool × Cursor
  | 0, allowed, c => (allowed, c)
  | fuel + 1, allowed, c =>
      let d := (c.skipWhile fun b => b == ' ' || ((flow || !allowed) && b == '\t')).skipComment
      match d.takeBreak? with
      | some (_, next) => gapFrom flow fuel (allowed || !flow) next
      | none => (allowed, d)

/-- The place behind a byte order mark at the start of the text. -/
def skipOrderMark (c : Cursor) : Cursor :=
  if c.index = 0 ∧ c.head? = some '\uFEFF' then c.advance 1 else c

/-- Passes over what stands in front of the next token. -/
def gap (flow allowed : Bool) (c : Cursor) : Bool × Cursor :=
  gapFrom flow ((skipOrderMark c).rest.length + 1) allowed (skipOrderMark c)

theorem Lexer.skipGapFrom_eq (n : Nat) (l : Lexer) :
    l.skipGapFrom n =
      (l.moveTo (gapFrom l.inFlow n l.keyAllowed l.cursor).2).allowKey
        (gapFrom l.inFlow n l.keyAllowed l.cursor).1 := by
  induction n generalizing l with
  | zero => rfl
  | succ n ih =>
      cases hbreak : (l.cursor.skipWhile fun b =>
          b == ' ' || ((l.inFlow || !l.keyAllowed) && b == '\t')).skipComment.takeBreak? with
      | none =>
          simp only [skipGapFrom, gapFrom, hbreak]
          rfl
      | some found =>
          simp only [skipGapFrom, gapFrom, hbreak, ih]
          rfl

theorem Lexer.skipGap_eq (l : Lexer) :
    l.skipGap = (l.moveTo (gap l.inFlow l.keyAllowed l.cursor).2).allowKey
      (gap l.inFlow l.keyAllowed l.cursor).1 := by
  simp only [skipGap, skipGapFrom_eq]
  rfl

variable {t : Tails} {c₁ c₂ c : Cursor}

/-- **Gaps between tokens are read locally**, with enough fuel for either text. -/
theorem agree_gapFrom (flow allowed : Bool) {m k : Nat} (h : Kept t c₁ c₂)
    (h₁ : c₁.rest.length < m) (h₂ : c₂.rest.length < k) :
    (gapFrom flow m allowed c₁).2.rest <:+ c₁.rest ∧
      (Past t (gapFrom flow m allowed c₁).2 ∨
        (gapFrom flow k allowed c₂).1 = (gapFrom flow m allowed c₁).1 ∧
          Kept t (gapFrom flow m allowed c₁).2 (gapFrom flow k allowed c₂).2) := by
  induction m generalizing t c₁ c₂ k allowed with
  | zero => exact absurd h₁ (Nat.not_lt_zero _)
  | succ m ih =>
      obtain ⟨k, rfl⟩ : ∃ n, k = n + 1 :=
        Nat.exists_eq_succ_of_ne_zero (Nat.ne_zero_of_lt h₂)
      simp only [gapFrom]
      generalize hp : (fun b => b == ' ' || ((flow || !allowed) && b == '\t')) = p
      have hblank : ∀ b, p b = true → isBlank b = true := by
        intro b hb
        rw [← hp] at hb
        simp only [Bool.or_eq_true, Bool.and_eq_true, beq_iff_eq] at hb
        rcases hb with rfl | ⟨-, rfl⟩ <;> decide
      have hs₁ : (c₁.skipWhile p).skipComment.rest <:+ c₁.rest :=
        (Cursor.rest_skipComment_suffix _).trans (Cursor.rest_skipWhile_suffix _ _)
      have hs₂ : (c₂.skipWhile p).skipComment.rest <:+ c₂.rest :=
        (Cursor.rest_skipComment_suffix _).trans (Cursor.rest_skipWhile_suffix _ _)
      have hd := (h.skipWhile hblank).skipComment
      generalize (c₁.skipWhile p).skipComment = d₁ at hs₁ hd ⊢
      generalize (c₂.skipWhile p).skipComment = d₂ at hs₂ hd ⊢
      have hle₁ := hs₁.length_le
      have hle₂ := hs₂.length_le
      cases hbreak : d₁.takeBreak? with
      | none =>
          refine ⟨hs₁, hd.imp_right fun hd => ?_⟩
          rcases hd.takeBreak? with ⟨-, hbreak₂⟩ | ⟨b, e₁, e₂, hsome, -⟩
          · rw [hbreak₂]
            exact ⟨rfl, hd⟩
          · rw [hbreak] at hsome
            cases hsome
      | some q =>
          obtain ⟨b, e₁⟩ := q
          obtain ⟨hsuffix, hlt⟩ := Cursor.rest_of_takeBreak? hbreak
          have hunary : (gapFrom flow m (allowed || !flow) e₁).2.rest <:+ d₁.rest :=
            (ih _ (k := m) (within_over e₁).kept (by omega) (by omega)).1.trans hsuffix
          refine ⟨hunary.trans hs₁, ?_⟩
          rcases hd with hpast | hd
          · exact .inl (hpast.of_suffix hunary)
          rcases hd.takeBreak? with ⟨hnone, -⟩ | ⟨b', e₁', e₂, hbreak₁, hbreak₂, he⟩
          · rw [hbreak] at hnone
            cases hnone
          · rw [hbreak] at hbreak₁
            cases hbreak₁
            have hlt₂ := (Cursor.rest_of_takeBreak? hbreak₂).2
            rw [hbreak₂]
            exact (ih _ he.kept (by omega) (by omega)).2

/-- Whether anything was read before is the same in both texts. -/
theorem Kept.index_eq_zero (h : Kept t c₁ c₂) : c₂.index = 0 ↔ c₁.index = 0 := by
  obtain ⟨x, hx, -⟩ := h
  obtain ⟨n, h₁, h₂⟩ := hx.index
  have hstart := t.start
  omega

theorem Kept.skipOrderMark (h : Kept t c₁ c₂) : Kept t (skipOrderMark c₁) (skipOrderMark c₂) := by
  rw [Yaml.skipOrderMark, Yaml.skipOrderMark]
  rcases h.within_or with hwithin | ⟨-, ⟨-, hindex⟩, -⟩
  · simp only [h.index_eq_zero, hwithin.head?]
    split
    next hmark => exact hwithin.kept_advance_one hmark.2
    · exact h
  · have hne : ¬ c₁.index = 0 := by omega
    rw [if_neg fun hmark => hne hmark.1, if_neg fun hmark => hne (h.index_eq_zero.mp hmark.1)]
    exact h

theorem rest_skipOrderMark_suffix (c : Cursor) : (skipOrderMark c).rest <:+ c.rest := by
  rw [skipOrderMark]
  split
  · exact c.rest_advance_suffix 1
  · exact List.suffix_refl _

theorem agree_gap (flow allowed : Bool) (h : Kept t c₁ c₂) :
    (gap flow allowed c₁).2.rest <:+ c₁.rest ∧
      (Past t (gap flow allowed c₁).2 ∨
        (gap flow allowed c₂).1 = (gap flow allowed c₁).1 ∧
          Kept t (gap flow allowed c₁).2 (gap flow allowed c₂).2) := by
  have hgap := h.skipOrderMark
  exact ⟨(agree_gapFrom flow allowed hgap (Nat.lt_succ_self _) (Nat.lt_succ_self _)).1.trans
    (rest_skipOrderMark_suffix c₁),
    (agree_gapFrom flow allowed hgap (Nat.lt_succ_self _) (Nat.lt_succ_self _)).2⟩

/-! ### Where a plain scalar begins -/

/-- A character that may begin a plain scalar belongs to its first word. -/
theorem exists_of_startsPlain {flow : Bool} (h : startsPlain flow c = true) :
    ∃ b r, c.rest = b :: r ∧ (isBlank b || isBreak b) = false ∧
      (flow && isFlowMark b) = false ∧ (b = ':' → flow = false ∧ isWordEnd r = false) ∧
      b ≠ '#' := by
  rw [startsPlain] at h
  split at h
  · cases h
  next b hb =>
    obtain ⟨r, hrest⟩ := Cursor.exists_of_head? hb
    have hlone : c.isLone = isWordEnd r := by rw [Cursor.isLone, hrest]; rfl
    refine ⟨b, r, hrest, ?_⟩
    rw [hlone] at h
    simp only [Bool.or_eq_true, Bool.and_eq_true, Bool.not_eq_true', Bool.or_eq_false_iff,
      beq_iff_eq] at h
    rcases h with ((⟨⟨hblank, hbreak⟩, hsign⟩) | ⟨rfl, -⟩) | ⟨⟨hflow, rfl | rfl⟩, hend⟩
    · have hne {d : Char} (hd : [
          '-', '?', ':', ',', '[', ']', '\x7b', '\x7d', '#', '&', '*', '!', '|', '>', '\'',
          '"', '%', '@', '\x60'].contains d = true) : b ≠ d := by
        rintro rfl
        rw [hsign] at hd
        cases hd
      refine ⟨by rw [hblank, hbreak]; rfl, ?_, fun heq => absurd heq (hne (by decide)),
        hne (by decide)⟩
      refine Bool.and_eq_false_imp.mpr fun _ => Bool.eq_false_iff.mpr fun hmark => ?_
      simp only [isFlowMark, List.contains_cons, List.contains_nil, Bool.or_eq_true, beq_iff_eq,
        Bool.false_eq_true, or_false] at hmark
      rcases hmark with heq | heq | heq | heq | heq <;> exact hne (by decide) heq
    · exact ⟨by decide, by cases flow <;> decide, fun heq => absurd heq (by decide), by decide⟩
    · exact ⟨by decide, by cases flow <;> decide, fun heq => absurd heq (by decide), by decide⟩
    · exact ⟨by decide, by cases flow <;> decide, fun _ => ⟨hflow, hend⟩, by decide⟩

theorem plainWord_ne_nil {flow : Bool} {w : List Char} (h : startsPlain flow c = true)
    (hw : plainWord flow c.rest = .ok w) : w ≠ [] := by
  obtain ⟨b, r, hrest, hgap, hmark, hcolon, -⟩ := exists_of_startsPlain h
  rintro rfl
  rw [hrest] at hw
  obtain ⟨hend, -⟩ := (exists_of_plainWord_cons hw).resolve_right (by simp)
  rw [endsWord, hgap, hmark, Bool.false_or, Bool.or_false] at hend
  obtain ⟨heq, hend⟩ := Bool.and_eq_true_iff.mp hend
  rw [(hcolon (beq_iff_eq.mp heq)).2] at hend
  cases hend

/-- A plain scalar begins with a word. -/
theorem exists_word_of_readPlain {flow broken : Bool} {indent : Nat} {text : List Char}
    {d : Cursor} (h : startsPlain flow c = true) (hmark : c.isDocumentMark = false)
    (hread : readPlain flow indent c = .ok (text, broken, d)) :
    ∃ w g, w ≠ [] ∧ plainWord flow c.rest = .ok w ∧ broken = !g.breaks.isEmpty ∧
      plainAfter flow indent c.rest.length w {} (c.advance w.length) = .ok (text, g, d) := by
  rw [readPlain] at hread
  obtain ⟨⟨text, g, d⟩, hread, heq⟩ := exists_of_bind_ok hread
  cases heq
  obtain ⟨b, r, hrest, -, -, -, hb⟩ := exists_of_startsPlain h
  have hcomment : (c.isDocumentMark || decide (c.head? = some '#')) = false := by
    rw [hmark, Cursor.head?, hrest]
    simpa using hb
  rw [readPlainFrom_succ, hcomment, if_neg Bool.false_ne_true] at hread
  obtain ⟨w, hw, hread⟩ := exists_of_bind_ok hread
  have hne := plainWord_ne_nil h hw
  rw [List.isEmpty_eq_false_iff.mpr hne] at hread
  exact ⟨w, g, hne, hw, rfl, hread⟩

/-- What is read behind a word is added to it. -/
theorem exists_of_plainAfter {flow : Bool} {indent n : Nat} {text text' : List Char} {g g' : Gap}
    {d : Cursor} (hn : c.rest.length ≤ n)
    (hread : plainAfter flow indent n text g c = .ok (text', g', d)) :
    d.rest <:+ c.rest ∧ ∃ w, text' = text ++ w := by
  obtain ⟨hsuffix, w, heq, -⟩ :=
    agree_plainAfter (fun hkept h₁ h₂ => agree_readPlainFrom hkept h₁ h₂)
    (within_over c) hn hn _ _ _ hread
  exact ⟨hsuffix, w, heq⟩

theorem rest_readPlain_suffix {flow broken : Bool} {indent : Nat} {text : List Char}
    {d : Cursor} (h : startsPlain flow c = true) (hmark : c.isDocumentMark = false)
    (hread : readPlain flow indent c = .ok (text, broken, d)) : d.rest <:+ (c.advance 1).rest := by
  obtain ⟨w, g, hne, -, -, hread⟩ := exists_word_of_readPlain h hmark hread
  obtain ⟨b, w, rfl⟩ := List.exists_cons_of_ne_nil hne
  refine (exists_of_plainAfter (c.rest_advance_suffix _).length_le hread).1.trans ?_
  rw [List.length_cons, Nat.add_comm, ← Cursor.advance_add]
  exact Cursor.rest_advance_suffix _ _

/-! ### Finding a token is local -/

theorem agree_ite {α : Type} {p : Prop} [Decidable p] {m₁ m₂ s₁ s₂ : Except Fault (α × Cursor)}
    (h₁ : p → Agree t c m₁ s₁) (h₂ : ¬ p → Agree t c m₂ s₂) :
    Agree t c (if p then m₁ else m₂) (if p then s₁ else s₂) := by
  by_cases hp : p
  · rw [if_pos hp, if_pos hp]
    exact h₁ hp
  · rw [if_neg hp, if_neg hp]
    exact h₂ hp

theorem Agree.map {α β : Type} {m s : Except Fault (α × Cursor)} (h : Agree t c m s)
    (f : α → β) :
    Agree t c (m.map fun p => (f p.1, p.2)) (s.map fun p => (f p.1, p.2)) := by
  intro b d₁ hread
  cases m with
  | error e => cases hread
  | ok p =>
      cases hread
      obtain ⟨hsuffix, hsame⟩ := h p.1 p.2 rfl
      refine ⟨hsuffix, hsame.imp_right ?_⟩
      rintro ⟨d₂, rfl, hkept⟩
      exact ⟨d₂, rfl, hkept⟩

theorem agree_ok {α : Type} {a : α} {d₁ d₂ : Cursor} (hsuffix : d₁.rest <:+ c.rest)
    (h : Kept t d₁ d₂) : Agree t c (.ok (a, d₁)) (.ok (a, d₂)) := by
  intro b e₁ hread
  cases hread
  exact ⟨hsuffix, .inr ⟨d₂, rfl, h⟩⟩

theorem agree_error {α : Type} {f f' : Fault} :
    Agree t c (.error f : Except Fault (α × Cursor)) (.error f') := by
  intro b d₁ hread
  cases hread

/-- A mark between documents is passed over. -/
theorem Within.agree_mark {α : Type} {a : α} (h : Within t c₁ c₂) {m : Char}
    (hblank : isBlank m = false) (hmark : c₁.isMark m = true) :
    Agree t (c₁.advance 1) (.ok (a, c₁.advance 3)) (.ok (a, c₂.advance 3)) := by
  rw [Cursor.isMark_eq] at hmark
  simp only [Bool.and_eq_true, beq_iff_eq] at hmark
  obtain ⟨-, hfirst, hsecond, hthird, -⟩ := hmark
  have hkept := (((h.advance_one hfirst hblank).advance_one hsecond hblank).advance_one hthird
    hblank).kept
  have hsuffix := ((c₁.advance 1).advance 1).rest_advance_suffix 1
  simp only [Cursor.advance_add] at hkept hsuffix
  refine agree_ok (hsuffix.trans ?_) hkept
  rw [← Cursor.advance_add c₁ 1 1]
  exact Cursor.rest_advance_suffix _ 1

/-- **Finding a token is local**, in front of the place. -/
theorem agree_scan {flow : Bool} {indent : Nat} (h : Within t c₁ c₂) {b : Char}
    (hb : c₁.head? = some b) (hblank : isBlank b = false) :
    Agree t (c₁.advance 1) (scan flow indent c₁) (scan flow indent c₂) := by
  have hnext := h.advance_one hb hblank
  have hlone : c₂.isLone = c₁.isLone := hnext.isWordEnd
  have hsecond : c₂.second? = c₁.second? := hnext.head?
  have hstarts : startsPlain flow c₂ = startsPlain flow c₁ := by
    rw [startsPlain, startsPlain, h.head?, hsecond, hlone]
  simp only [scan, h.head?, hb, h.kept.column, h.kept.isMark (m := '-') (by decide),
    h.kept.isMark (m := '.') (by decide), hlone, hstarts]
  have hone (e : Event) : Agree t (c₁.advance 1) (.ok (e, c₁.advance 1)) (.ok (e, c₂.advance 1)) :=
    agree_ok (List.suffix_refl _) hnext.kept
  have hname (f : List Char → Token) : Agree t (c₁.advance 1)
      ((readName c₁).map fun p => (Event.node (f p.1), p.2))
      ((readName c₂).map fun p => (Event.node (f p.1), p.2)) := by
    refine Agree.map (fun name d₁ hread => ?_) fun name => Event.node (f name)
    obtain ⟨hsuffix, d₂, hread₂, hd⟩ := within_readName hnext hread
    exact ⟨hsuffix, .inr ⟨d₂, hread₂, hd.kept⟩⟩
  have hblock (folded : Bool) : Agree t (c₁.advance 1)
      ((readBlock folded indent c₁).map fun p => (Event.block p.1, p.2))
      ((readBlock folded indent c₂).map fun p => (Event.block p.1, p.2)) :=
    Agree.map (fun _ _ hread => agree_readBlock hnext hread) _
  have hquoted (double : Bool) : Agree t (c₁.advance 1)
      ((readQuoted double c₁).map fun p => (Event.node (.scalar false p.1), p.2))
      ((readQuoted double c₂).map fun p => (Event.node (.scalar false p.1), p.2)) :=
    Agree.map (fun _ _ hread => agree_readQuoted hnext.kept hread)
      fun text => Event.node (.scalar false text)
  refine agree_ite (fun _ => ?directive) fun _ => ?_
  case directive => exact Agree.map (fun _ _ hread => agree_readDirective hnext hread) _
  refine agree_ite (fun hmark => h.agree_mark (by decide) hmark) fun hdash => ?_
  refine agree_ite (fun hmark => h.agree_mark (by decide) hmark) fun hdot => ?_
  refine agree_ite (fun _ => hone _) fun _ => agree_ite (fun _ => hone _) fun _ => ?_
  refine agree_ite (fun _ => hone _) fun _ => agree_ite (fun _ => hone _) fun _ => ?_
  refine agree_ite (fun _ => hone _) fun _ => agree_ite (fun _ => hone _) fun _ => ?_
  refine agree_ite (fun _ => hone _) fun _ => agree_ite (fun _ => hone _) fun _ => ?_
  refine agree_ite (fun _ => hname _) fun _ => agree_ite (fun _ => hname _) fun _ => ?_
  refine agree_ite (fun htag => ?tag) fun _ => ?_
  case tag =>
    refine Agree.map (fun tag d₁ hread => ?_) _
    obtain ⟨hsuffix, d₂, hread₂, hd⟩ := within_readTag h (hb.trans (htag ▸ rfl)) hread
    exact ⟨hsuffix, .inr ⟨d₂, hread₂, hd.kept⟩⟩
  refine agree_ite (fun _ => hblock _) fun _ => agree_ite (fun _ => hblock _) fun _ => ?_
  refine agree_ite (fun _ => hquoted _) fun _ => agree_ite (fun _ => hquoted _) fun _ => ?_
  refine agree_ite (fun hplain => ?plain) fun _ => agree_error
  have hmark : c₁.isDocumentMark = false := by
    rw [Cursor.isDocumentMark, Bool.of_not_eq_true hdash, Bool.of_not_eq_true hdot]
    rfl
  intro e d₁ hread
  cases hplain₁ : readPlain flow indent c₁ with
  | error f =>
      rw [hplain₁] at hread
      cases hread
  | ok p =>
      obtain ⟨text, broken, d⟩ := p
      rw [hplain₁] at hread
      cases hread
      refine ⟨rest_readPlain_suffix hplain hmark hplain₁, ?_⟩
      refine (agree_readPlain h.kept hplain₁).2.imp_right ?_
      rintro ⟨d₂, hplain₂, hd⟩
      exact ⟨d₂, by rw [hplain₂]; rfl, hd⟩

/-- No token begins with a blank. -/
theorem isBlank_of_scan {flow : Bool} {indent : Nat} {e : Event} {b : Char} {d : Cursor}
    (hb : c.head? = some b) (hread : scan flow indent c = .ok (e, d)) : isBlank b = false := by
  refine Bool.eq_false_iff.mpr fun hblank => ?_
  have hmark {m : Char} (hm : b ≠ m) : c.isMark m = false := by
    have hhead : (some b == some m) = false :=
      beq_eq_false_iff_ne.mpr fun heq => hm (Option.some.inj heq)
    rw [Cursor.isMark_eq, hb, hhead, Bool.false_and, Bool.and_false]
  have hstarts : startsPlain flow c = false := by
    refine Bool.eq_false_iff.mpr fun hstarts => ?_
    obtain ⟨d, r, hrest, hgap, -⟩ := exists_of_startsPlain hstarts
    rw [Cursor.head?, hrest, List.head?_cons, Option.some.injEq] at hb
    rw [hb, hblank] at hgap
    cases hgap
  simp only [isBlank, Bool.or_eq_true, beq_iff_eq] at hblank
  rcases hblank with rfl | rfl
  all_goals
    simp [scan, hb, hmark (m := '-') (by decide), hmark (m := '.') (by decide), hstarts] at hread

end RealmDirectory.Yaml
