import Mathlib.Data.List.Forall2
import RealmDirectory.Proofs.Yaml.Plain

/-!
# Steps of two lexers

Two lexers that read texts which are the same up to a place keep up with each other: they hold the
same tokens, but for a plain scalar that the second one has another text for, the same open blocks,
and possible keys at corresponding places. What a lexer does with what it finds preserves this.

## Main definitions

* `Token.substitute`, `Event.substitute`: another text for a plain scalar.
* `Lexer.Twin`: lexers that keep up with each other.
* `Lexer.approach`: the part of a step in front of its token.

## Main results

* `Lexer.Twin.update`, `Lexer.Twin.approach`: the parts of a step keep lexers together.
* `Lexer.Onward`: what any step keeps of a lexer.
-/

namespace RealmDirectory.Yaml

open Lexer

/-! ### Tokens with another text -/

/-- A token, where the plain scalar `r` gets the text `v`. -/
def Token.substitute (r v : List Char) : Token → Token
  | .scalar true s => .scalar true (if s = r then v else s)
  | t => t

theorem Token.substitute_of_ne {r v : List Char} {b : Token} (h : b ≠ .scalar true r) :
    b.substitute r v = b := by
  unfold substitute
  split
  next s =>
    have hne : s ≠ r := fun heq => h (heq ▸ rfl)
    rw [if_neg hne]
  · rfl

/-- The token that an event brings along. -/
def Event.token? : Event → Option Token
  | between b => some b
  | openFlow b => some b
  | closeFlow b => some b
  | mark b _ => some b
  | node b => some b
  | plain s _ => some (.scalar true s)
  | _ => none

/-- An event, where the plain scalar `r` gets the text `v`. -/
def Event.substitute (r v : List Char) : Event → Event
  | between b => between (b.substitute r v)
  | openFlow b => openFlow (b.substitute r v)
  | closeFlow b => closeFlow (b.substitute r v)
  | mark b allowed => mark (b.substitute r v) allowed
  | node b => node (b.substitute r v)
  | plain s broken => plain (if s = r then v else s) broken
  | e => e

theorem Event.substitute_of_ne {r v : List Char} {e : Event}
    (h : e.token? ≠ some (.scalar true r)) : e.substitute r v = e := by
  have hne {b : Token} (hb : some b ≠ some (Token.scalar true r)) : b.substitute r v = b :=
    Token.substitute_of_ne fun heq => hb (heq ▸ rfl)
  cases e with
  | between b => rw [substitute, hne h]
  | openFlow b => rw [substitute, hne h]
  | closeFlow b => rw [substitute, hne h]
  | mark b allowed => rw [substitute, hne h]
  | node b => rw [substitute, hne h]
  | plain s broken =>
      have hs : s ≠ r := fun heq => h (by rw [heq]; rfl)
      rw [substitute, if_neg hs]
  | nothing => rfl
  | entry => rfl
  | key => rfl
  | value => rfl
  | block text => rfl

theorem of_ite_eq_ok {α ε : Type} {p q : Prop} [Decidable p] {m s : Except ε α} {a : α}
    (h : (if p then m else s) = .ok a) (h₁ : p → m = .ok a → q) (h₂ : ¬ p → s = .ok a → q) : q := by
  split at h
  next hp => exact h₁ hp h
  next hp => exact h₂ hp h

/-- **A plain scalar is found** only where one is read. -/
theorem exists_of_scan_plain {flow : Bool} {indent : Nat} {c d : Cursor} {e : Event}
    {s : List Char} (hread : scan flow indent c = .ok (e, d))
    (hs : e.token? = some (.scalar true s)) :
    startsPlain flow c = true ∧ c.isDocumentMark = false ∧
      ∃ broken, readPlain flow indent c = .ok (s, broken, d) ∧ e = .plain s broken := by
  have hother {e' : Event} {c' : Cursor} {q : Prop} (hne : e'.token? ≠ some (.scalar true s))
      (h : (.ok (e', c') : Except Fault (Event × Cursor)) = .ok (e, d)) : q := by
    cases h
    exact absurd hs hne
  have hmap {α : Type} {m : Except Fault α} {f : α → Event × Cursor} {q : Prop}
      (hne : ∀ a, m = .ok a → (f a).1.token? ≠ some (.scalar true s))
      (h : m.map f = .ok (e, d)) : q := by
    obtain ⟨a, hm, heq⟩ := exists_of_map_eq_ok h
    have hother := hne a hm
    rw [heq] at hother
    exact absurd hs hother
  have hscalar {b : Token} {q : Prop} (hb : ∀ plain text, b ≠ .scalar plain text)
      (h : some b = some (.scalar true s)) : q :=
    absurd (Option.some.inj h) (hb true s)
  rw [scan] at hread
  split at hread
  · exact hother (fun h => by cases h) hread
  refine of_ite_eq_ok hread (fun _ => hmap fun b hm h =>
    hscalar (ne_scalar_of_readDirective hm) h) fun _ hread => ?_
  refine of_ite_eq_ok hread (fun _ => hother fun h => by cases h) fun hdash hread => ?_
  refine of_ite_eq_ok hread (fun _ => hother fun h => by cases h) fun hdot hread => ?_
  iterate 5 refine of_ite_eq_ok hread (fun _ => hother fun h => by cases h) fun _ hread => ?_
  iterate 3 refine of_ite_eq_ok hread (fun _ => hother fun h => by cases h) fun _ hread => ?_
  iterate 2 refine of_ite_eq_ok hread (fun _ => hmap fun a _ h => by cases h) fun _ hread => ?_
  refine of_ite_eq_ok hread (fun _ => hmap fun b hm h =>
    hscalar (ne_scalar_of_readTag hm) h) fun _ hread => ?_
  iterate 4 refine of_ite_eq_ok hread (fun _ => hmap fun a _ h => by cases h) fun _ hread => ?_
  refine of_ite_eq_ok hread (fun hstarts hread => ⟨hstarts, ?_, ?_⟩) fun _ hread => ?_
  · rw [Cursor.isDocumentMark, Bool.of_not_eq_true hdash, Bool.of_not_eq_true hdot]
    rfl
  · obtain ⟨⟨text, broken, d'⟩, hplain, heq⟩ := exists_of_map_eq_ok hread
    cases heq
    cases hs
    exact ⟨broken, hplain, rfl⟩
  · cases hread

/-! ### What steps keep -/

namespace Lexer

variable {t : Tails} {r v : List Char} {l l' l₁ l₂ l₁' l₂' : Lexer} {c₁ c₂ : Cursor}

/-- Whether the outermost of the open columns stands for the document itself. -/
def IsGrounded (l : Lexer) : Prop := (l.indent :: l.outer).getLast? = some (-1)

/-- What a lexer keeps: the outermost column, and no plain scalars but its own and perhaps a new
one. -/
structure Onward (own : Option Token) (l l' : Lexer) : Prop where
  grounded : l.IsGrounded → l'.IsGrounded
  tokens : ∀ s, .scalar true s ∈ l'.tokens → .scalar true s ∈ l.tokens ∨ own = some (.scalar true s)

theorem Onward.refl (own : Option Token) (l : Lexer) : Onward own l l :=
  ⟨id, fun _ => .inl⟩

theorem Onward.trans {own : Option Token} (h : Onward none l l₁) (h' : Onward own l₁ l') :
    Onward own l l' :=
  ⟨fun hl => h'.grounded (h.grounded hl), fun s hs => (h'.tokens s hs).imp_left fun hs =>
    (h.tokens s hs).resolve_right fun heq => by cases heq⟩

/-- Possible keys, and whether a key may begin, do not matter. -/
theorem Onward.of_eq {own : Option Token} (hindent : l'.indent = l.indent)
    (houter : l'.outer = l.outer) (htokens : l'.tokens = l.tokens) : Onward own l l' := by
  refine ⟨fun hl => ?_, fun s hs => .inl (htokens ▸ hs)⟩
  rwa [IsGrounded, hindent, houter]

theorem Onward.push (h : Onward none l l₁) (b : Token) : Onward (some b) l (l₁.push b) := by
  refine ⟨h.grounded, fun s hs => ?_⟩
  rcases List.mem_append.mp hs with hs | hs
  · exact .inl ((h.tokens s hs).resolve_right fun heq => by cases heq)
  · exact .inr (congrArg some (List.mem_singleton.mp hs).symm)

/-- A token that is no plain scalar does not count. -/
theorem Onward.forget {b : Token} (h : Onward (some b) l l') (hb : ∀ s, b ≠ .scalar true s) :
    Onward none l l' :=
  ⟨h.grounded, fun s hs => (h.tokens s hs).imp_right fun heq => absurd (Option.some.inj heq) (hb s)⟩

theorem onward_dropKey (h : l.dropKey = .ok l') : Onward none l l' := by
  obtain ⟨-, rfl⟩ := dropKey_eq_ok_iff.mp h
  exact .of_eq rfl rfl rfl

theorem onward_saveKey (h : l.saveKey = .ok l') : Onward none l l' := by
  rw [saveKey_eq_ok_iff] at h
  split at h
  · obtain ⟨-, rfl⟩ := h
    exact .of_eq rfl rfl rfl
  · exact h ▸ .refl none l

theorem onward_openBlock (column position : Nat) {b : Token} (hb : ∀ s, b ≠ .scalar true s)
    (l : Lexer) : Onward none l (l.openBlock column position b) := by
  rw [openBlock]
  split
  · exact .refl none l
  · refine ⟨fun hl => ?_, fun s hs => .inl ?_⟩
    · rwa [IsGrounded, List.getLast?_cons_cons]
    · rcases List.mem_append.mp hs with hs | hs
      · exact List.mem_of_mem_take hs
      · rcases List.mem_cons.mp hs with hs | hs
        · exact absurd hs.symm (hb s)
        · exact List.mem_of_mem_drop hs

theorem closeColumns_spec (column : Int) (indent : Int) (outer : List Int) (ts : List Token) :
    ∃ n, (closeColumns column indent outer ts).2.2 = ts ++ List.replicate n .blockEnd ∧
      ((closeColumns column indent outer ts).1 ::
        (closeColumns column indent outer ts).2.1).getLast? = (indent :: outer).getLast? ∧
      ((closeColumns column indent outer ts).1 ≤ column ∨
        (closeColumns column indent outer ts).2.1 = []) := by
  induction outer generalizing indent ts with
  | nil => exact ⟨0, (List.append_nil ts).symm, rfl, .inr rfl⟩
  | cons o outer ih =>
      rw [closeColumns]
      split
      · obtain ⟨n, htokens, hlast, hleft⟩ := ih o (ts ++ [.blockEnd])
        refine ⟨n + 1, ?_, ?_, hleft⟩
        · rw [htokens, List.append_assoc, List.replicate_succ]
          rfl
        · rw [hlast, List.getLast?_cons_cons]
      next hle => exact ⟨0, (List.append_nil ts).symm, rfl, .inl (by omega)⟩

theorem closeBlocks_spec (column : Int) (l : Lexer) :
    ∃ n, (l.closeBlocks column).tokens = l.tokens ++ List.replicate n .blockEnd ∧
      ((l.closeBlocks column).indent :: (l.closeBlocks column).outer).getLast? =
        (l.indent :: l.outer).getLast? ∧
      (l.inFlow = false → (l.closeBlocks column).indent ≤ column ∨
        (l.closeBlocks column).outer = []) := by
  rw [closeBlocks]
  split
  next hflow =>
    exact ⟨0, (List.append_nil _).symm, rfl, fun hnot => absurd (hflow.symm.trans hnot) (by decide)⟩
  · obtain ⟨n, htokens, hlast, hleft⟩ := closeColumns_spec column l.indent l.outer l.tokens
    exact ⟨n, htokens, hlast, fun _ => hleft⟩

theorem onward_closeBlocks (column : Int) (l : Lexer) : Onward none l (l.closeBlocks column) := by
  obtain ⟨n, htokens, hlast, -⟩ := closeBlocks_spec column l
  refine ⟨fun hl => hlast.trans hl, fun s hs => .inl ?_⟩
  rw [htokens] at hs
  rcases List.mem_append.mp hs with hs | hs
  · exact hs
  · cases List.eq_of_mem_replicate hs

/-- Blocks to the right of a column are closed. -/
theorem indent_closeBlocks_le {column : Int} (hflow : l.inFlow = false) (hl : l.IsGrounded)
    (hcolumn : -1 ≤ column) : (l.closeBlocks column).indent ≤ column := by
  obtain ⟨n, -, hlast, hleft⟩ := closeBlocks_spec column l
  refine (hleft hflow).elim id fun hnil => ?_
  rw [hnil, List.getLast?_singleton] at hlast
  obtain heq : (l.closeBlocks column).indent = -1 := Option.some.inj (hlast.trans hl)
  exact heq ▸ hcolumn

theorem onward_pushMark {b : Token} {allowed : Bool} (h : l.pushMark b allowed = .ok l') :
    Onward (some b) l l' := by
  rw [pushMark] at h
  obtain ⟨l₁, hdrop, h⟩ := exists_of_bind_ok h
  cases h
  refine .push (.trans (onward_dropKey hdrop) ?_) b
  exact .of_eq rfl rfl rfl

theorem onward_pushNode {b : Token} {allowed : Bool} (h : l.pushNode b allowed = .ok l') :
    Onward (some b) l l' := by
  rw [pushNode] at h
  obtain ⟨l₁, hsave, h⟩ := exists_of_bind_ok h
  cases h
  refine .push (.trans (onward_saveKey hsave) ?_) b
  exact .of_eq rfl rfl rfl

/-- **What is done with an event** adds no plain scalar but the one that it brings along. -/
theorem onward_update {e : Event} (h : e.update l = .ok l') : Onward e.token? l l' := by
  cases e with
  | nothing =>
      cases h
      exact .refl none l
  | between b => exact (onward_closeBlocks _ _).trans (onward_pushMark h)
  | openFlow b =>
      obtain ⟨l₁, hsave, h⟩ := exists_of_bind_ok h
      cases h
      refine .push (.trans (onward_saveKey hsave) ?_) b
      exact .of_eq rfl rfl rfl
  | closeFlow b =>
      obtain ⟨l₁, hdrop, h⟩ := exists_of_bind_ok h
      cases h
      refine .push (.trans (onward_dropKey hdrop) ?_) b
      exact .of_eq rfl rfl rfl
  | mark b allowed => exact onward_pushMark h
  | entry =>
      rw [Event.update] at h
      split at h
      · exact (onward_pushMark h).forget fun s => Token.noConfusion
      split at h
      · cases h
      · exact (onward_openBlock _ _ (fun s => Token.noConfusion) l).trans
          ((onward_pushMark h).forget fun s => Token.noConfusion)
  | key =>
      rw [Event.update] at h
      split at h
      · exact (onward_pushMark h).forget fun s => Token.noConfusion
      split at h
      · cases h
      · exact (onward_openBlock _ _ (fun s => Token.noConfusion) l).trans
          ((onward_pushMark h).forget fun s => Token.noConfusion)
  | value =>
      have hvalue {l₁ : Lexer} (h : Onward none l l₁) : Onward none l (l₁.push .value) :=
        (h.push .value).forget fun s => Token.noConfusion
      rw [Event.update] at h
      split at h
      next k outer hkeys =>
        cases h
        refine hvalue (.trans ?_ (onward_openBlock _ _ (fun s => Token.noConfusion) _))
        refine ⟨id, fun s hs => .inl ?_⟩
        rcases List.mem_append.mp hs with hs | hs
        · exact List.mem_of_mem_take hs
        · rcases List.mem_cons.mp hs with hs | hs
          · cases hs
          · exact List.mem_of_mem_drop hs
      · split at h
        · cases h
          exact hvalue (.of_eq rfl rfl rfl)
        split at h
        · cases h
        · cases h
          exact hvalue (.trans (onward_openBlock _ _ (fun s => Token.noConfusion) l)
            (.of_eq rfl rfl rfl))
  | node b => exact onward_pushNode h
  | block text => exact (onward_pushMark h).forget fun s => fun heq => by cases heq
  | plain s broken => exact onward_pushNode h

/-! ### Lexers that keep up with each other -/

/-- Possible keys at corresponding places. -/
structure KeyTwin (t : Tails) (k₁ k₂ : PossibleKey) : Prop where
  token : k₂.token = k₁.token
  required : k₂.required = k₁.required
  line : k₂.place.line = k₁.place.line
  column : k₂.place.column = k₁.place.column
  index : ∃ n, k₁.place.index = t.index₁ + n ∧ k₂.place.index = t.index₂ + n

/-- Lexers that hold the same but for the text `v` of the second one's plain scalars `r`. -/
structure Twin (t : Tails) (r v : List Char) (l₁ l₂ : Lexer) : Prop where
  tokens : l₂.tokens = l₁.tokens.map (Token.substitute r v)
  indent : l₂.indent = l₁.indent
  outer : l₂.outer = l₁.outer
  keyAllowed : l₂.keyAllowed = l₁.keyAllowed
  keys : List.Forall₂ (Option.Rel (KeyTwin t)) l₁.keys l₂.keys

theorem Twin.inFlow (h : Twin t r v l₁ l₂) : l₂.inFlow = l₁.inFlow := by
  rw [Lexer.inFlow, Lexer.inFlow, h.keys.length_eq]

theorem Twin.moveTo (h : Twin t r v l₁ l₂) (c₁ c₂ : Cursor) :
    Twin t r v (l₁.moveTo c₁) (l₂.moveTo c₂) :=
  ⟨h.tokens, h.indent, h.outer, h.keyAllowed, h.keys⟩

theorem Twin.allowKey (h : Twin t r v l₁ l₂) (allowed : Bool) :
    Twin t r v (l₁.allowKey allowed) (l₂.allowKey allowed) :=
  ⟨h.tokens, h.indent, h.outer, rfl, h.keys⟩

theorem Twin.push (h : Twin t r v l₁ l₂) (b : Token) :
    Twin t r v (l₁.push b) (l₂.push (b.substitute r v)) := by
  refine ⟨?_, h.indent, h.outer, h.keyAllowed, h.keys⟩
  rw [Lexer.push, Lexer.push, h.tokens, List.map_append]
  rfl

theorem Twin.withKeys (h : Twin t r v l₁ l₂) {keys₁ keys₂ : List (Option PossibleKey)}
    (hkeys : List.Forall₂ (Option.Rel (KeyTwin t)) keys₁ keys₂) (allowed : Bool) :
    Twin t r v { l₁ with keys := keys₁, keyAllowed := allowed }
      { l₂ with keys := keys₂, keyAllowed := allowed } :=
  ⟨h.tokens, h.indent, h.outer, rfl, hkeys⟩

theorem Twin.drop_keys (h : Twin t r v l₁ l₂) (n : Nat) :
    List.Forall₂ (Option.Rel (KeyTwin t)) (l₁.keys.drop n) (l₂.keys.drop n) :=
  List.forall₂_drop n h.keys

/-- The innermost possible keys correspond. -/
theorem Twin.exists_head? (h : Twin t r v l₁ l₂) {k₂ : PossibleKey}
    (hk : l₂.keys.head? = some (some k₂)) :
    ∃ k₁, l₁.keys.head? = some (some k₁) ∧ KeyTwin t k₁ k₂ := by
  have hkeys := h.keys
  generalize l₁.keys = keys₁ at hkeys ⊢
  generalize l₂.keys = keys₂ at hkeys hk
  cases hkeys with
  | nil => cases hk
  | cons hhead _ =>
      cases hhead with
      | none => cases hk
      | some hkey =>
          cases hk
          exact ⟨_, rfl, hkey⟩

theorem Twin.exists_mem (h : Twin t r v l₁ l₂) {k₂ : PossibleKey} (hk : some k₂ ∈ l₂.keys) :
    ∃ k₁, some k₁ ∈ l₁.keys ∧ KeyTwin t k₁ k₂ := by
  have hkeys := h.keys
  generalize l₁.keys = keys₁ at hkeys ⊢
  generalize l₂.keys = keys₂ at hkeys hk
  induction hkeys with
  | nil => cases hk
  | cons hkey _ ih =>
      rcases List.mem_cons.mp hk with rfl | hk
      · cases hkey with
        | some hkey => exact ⟨_, List.mem_cons_self, hkey⟩
      · obtain ⟨k₁, hk₁, hkey⟩ := ih hk
        exact ⟨k₁, List.mem_cons_of_mem _ hk₁, hkey⟩

theorem Twin.openBlock (h : Twin t r v l₁ l₂) (column position : Nat) {b : Token}
    (hb : b.substitute r v = b) :
    Twin t r v (l₁.openBlock column position b) (l₂.openBlock column position b) := by
  rw [Lexer.openBlock, Lexer.openBlock, h.inFlow, h.indent]
  split
  · exact h
  · refine ⟨?_, rfl, ?_, h.keyAllowed, h.keys⟩
    · rw [h.tokens, List.map_append, List.map_take, List.map_cons, List.map_drop, hb]
    · rw [h.outer]

theorem closeColumns_map {f : Token → Token} (hf : f .blockEnd = .blockEnd) (column : Int)
    (indent : Int) (outer : List Int) (ts : List Token) :
    closeColumns column indent outer (ts.map f) =
      ((closeColumns column indent outer ts).1, (closeColumns column indent outer ts).2.1,
        (closeColumns column indent outer ts).2.2.map f) := by
  induction outer generalizing indent ts with
  | nil => rfl
  | cons o outer ih =>
      rw [closeColumns, closeColumns]
      split
      · rw [← ih, List.map_append, List.map_singleton, hf]
      · rfl

theorem Twin.closeBlocks (h : Twin t r v l₁ l₂) (column : Int) :
    Twin t r v (l₁.closeBlocks column) (l₂.closeBlocks column) := by
  rw [Lexer.closeBlocks, Lexer.closeBlocks, h.inFlow]
  split
  · exact h
  · rw [h.indent, h.outer, h.tokens, closeColumns_map rfl]
    exact ⟨rfl, rfl, rfl, h.keyAllowed, h.keys⟩

theorem Twin.dropKey (h : Twin t r v l₁ l₂) (hdrop : l₁.dropKey = .ok l₁') :
    ∃ l₂', l₂.dropKey = .ok l₂' ∧ Twin t r v l₁' l₂' := by
  obtain ⟨hrequired, rfl⟩ := dropKey_eq_ok_iff.mp hdrop
  refine ⟨_, dropKey_eq_ok_iff.mpr ⟨fun k₂ hk₂ => ?_, rfl⟩,
    h.tokens, h.indent, h.outer, h.keyAllowed, ?_⟩
  · obtain ⟨k₁, hk₁, hkey⟩ := h.exists_head? hk₂
    exact hkey.required.trans (hrequired k₁ hk₁)
  · have hkeys := h.keys
    generalize l₁.keys = keys₁ at hkeys
    generalize l₂.keys = keys₂ at hkeys
    cases hkeys with
    | nil => exact .nil
    | cons _ hkeys => exact .cons .none hkeys

theorem Twin.saveKey (h : Twin t r v l₁ l₂) (hkept : Kept t l₁.cursor l₂.cursor)
    (hsave : l₁.saveKey = .ok l₁') : ∃ l₂', l₂.saveKey = .ok l₂' ∧ Twin t r v l₁' l₂' := by
  rw [saveKey_eq_ok_iff] at hsave
  split at hsave
  next hallowed =>
    obtain ⟨hrequired, rfl⟩ := hsave
    have hsave₂ (l' : Lexer) : l₂.saveKey = .ok l' ↔ _ := saveKey_eq_ok_iff
    simp only [h.keyAllowed, if_pos hallowed] at hsave₂
    refine ⟨_, (hsave₂ _).mpr ⟨fun k₂ hk₂ => ?_, rfl⟩, h.tokens, h.indent, h.outer, rfl, ?_⟩
    · obtain ⟨k₁, hk₁, hkey⟩ := h.exists_head? hk₂
      exact hkey.required.trans (hrequired k₁ hk₁)
    · obtain ⟨x, hx, -⟩ := id hkept
      refine .cons (.some ⟨?_, ?_, hkept.line, hkept.column, hx.index⟩) (h.drop_keys 1)
      · rw [h.tokens, List.length_map]
      · rw [h.inFlow, h.indent, hkept.column]
  next hallowed =>
    subst hsave
    refine ⟨l₂, saveKey_eq_ok_iff.mpr ?_, h⟩
    rw [h.keyAllowed, if_neg hallowed]

theorem Twin.pushMark (h : Twin t r v l₁ l₂) {b : Token} {allowed : Bool}
    (hpush : l₁.pushMark b allowed = .ok l₁') :
    ∃ l₂', l₂.pushMark (b.substitute r v) allowed = .ok l₂' ∧ Twin t r v l₁' l₂' := by
  rw [Lexer.pushMark] at hpush
  obtain ⟨l, hdrop, hpush⟩ := exists_of_bind_ok hpush
  cases hpush
  obtain ⟨l₂', hdrop₂, htwin⟩ := h.dropKey hdrop
  exact ⟨_, by rw [Lexer.pushMark, hdrop₂]; rfl, (htwin.allowKey allowed).push b⟩

theorem Twin.pushNode (h : Twin t r v l₁ l₂) (hkept : Kept t l₁.cursor l₂.cursor) {b : Token}
    {allowed : Bool} (hpush : l₁.pushNode b allowed = .ok l₁') :
    ∃ l₂', l₂.pushNode (b.substitute r v) allowed = .ok l₂' ∧ Twin t r v l₁' l₂' := by
  rw [Lexer.pushNode] at hpush
  obtain ⟨l, hsave, hpush⟩ := exists_of_bind_ok hpush
  cases hpush
  obtain ⟨l₂', hsave₂, htwin⟩ := h.saveKey hkept hsave
  exact ⟨_, by rw [Lexer.pushNode, hsave₂]; rfl, (htwin.allowKey allowed).push b⟩

/-- A colon makes a key of corresponding possible keys. -/
theorem Twin.updateValue (h : Twin t r v l₁ l₂) (hkept : Kept t l₁.cursor l₂.cursor)
    (hupdate : Event.value.update l₁ = .ok l₁') :
    ∃ l₂', Event.value.update l₂ = .ok l₂' ∧ Twin t r v l₁' l₂' := by
  have hkeys := h.keys
  have hvalue {l₁ l₂ : Lexer} (h : Twin t r v l₁ l₂) :
      Twin t r v (l₁.push .value) (l₂.push .value) :=
    h.push .value
  -- Without a possible key, the colon follows a question mark.
  have hlate (hlate : (if l₁.inFlow then .ok ((l₁.allowKey false).push .value)
      else if !l₁.keyAllowed then .error .valueNotAllowed
      else .ok (((l₁.openBlock l₁.cursor.column l₁.tokens.length .blockMapping).allowKey
        true).push .value) : Except Fault Lexer) = .ok l₁') :
      ∃ l₂', (if l₂.inFlow then .ok ((l₂.allowKey false).push .value)
        else if !l₂.keyAllowed then .error .valueNotAllowed
        else .ok (((l₂.openBlock l₂.cursor.column l₂.tokens.length .blockMapping).allowKey
          true).push .value) : Except Fault Lexer) = .ok l₂' ∧ Twin t r v l₁' l₂' := by
    rw [h.inFlow, h.keyAllowed, hkept.column, h.tokens, List.length_map]
    split at hlate
    next hflow =>
      cases hlate
      exact ⟨_, if_pos hflow, hvalue (h.allowKey false)⟩
    next hflow =>
      split at hlate
      · cases hlate
      next hallowed =>
        cases hlate
        rw [if_neg hflow, if_neg hallowed]
        exact ⟨_, rfl, hvalue ((h.openBlock _ _ rfl).allowKey true)⟩
  rcases hkeys₁ : l₁.keys with _ | ⟨_ | k₁, outer₁⟩
  · rw [hkeys₁, List.forall₂_nil_left_iff] at hkeys
    simp only [Event.update, hkeys₁, hkeys] at hupdate ⊢
    exact hlate hupdate
  · obtain ⟨k₂, outer₂, hkey, -, hkeys₂⟩ := List.forall₂_cons_left_iff.mp (hkeys₁ ▸ hkeys)
    cases hkey
    simp only [Event.update, hkeys₁, hkeys₂] at hupdate ⊢
    exact hlate hupdate
  · obtain ⟨k₂, outer₂, hkey, houter, hkeys₂⟩ := List.forall₂_cons_left_iff.mp (hkeys₁ ▸ hkeys)
    cases hkey with
    | some hkey =>
        simp only [Event.update, hkeys₁, hkeys₂, hkey.token, hkey.column] at hupdate ⊢
        cases hupdate
        refine ⟨_, rfl, hvalue (Twin.openBlock ?_ _ _ rfl)⟩
        refine ⟨?_, h.indent, h.outer, rfl, ?_⟩
        · rw [h.tokens, List.map_append, List.map_take, List.map_cons, List.map_drop]
          rfl
        · exact .cons .none houter

/-- **What is done with an event** keeps lexers together. -/
theorem Twin.update (h : Twin t r v l₁ l₂) (hkept : Kept t l₁.cursor l₂.cursor) {e : Event}
    (hupdate : e.update l₁ = .ok l₁') :
    ∃ l₂', (e.substitute r v).update l₂ = .ok l₂' ∧ Twin t r v l₁' l₂' := by
  have hcolumn := hkept.column
  have hlength : l₂.tokens.length = l₁.tokens.length := by rw [h.tokens, List.length_map]
  cases e with
  | nothing =>
      cases hupdate
      exact ⟨l₂, rfl, h⟩
  | between b => exact (h.closeBlocks (-1)).pushMark hupdate
  | openFlow b =>
      obtain ⟨l, hsave, hupdate⟩ := exists_of_bind_ok hupdate
      cases hupdate
      obtain ⟨l₂', hsave₂, htwin⟩ := h.saveKey hkept hsave
      exact ⟨_, by rw [Event.substitute, Event.update, hsave₂]; rfl,
        (htwin.withKeys (.cons .none htwin.keys) true).push b⟩
  | closeFlow b =>
      obtain ⟨l, hdrop, hupdate⟩ := exists_of_bind_ok hupdate
      cases hupdate
      obtain ⟨l₂', hdrop₂, htwin⟩ := h.dropKey hdrop
      refine ⟨_, by rw [Event.substitute, Event.update, hdrop₂]; rfl,
        (htwin.withKeys ?_ false).push b⟩
      rw [htwin.inFlow]
      split
      · exact htwin.drop_keys 1
      · exact htwin.keys
  | mark b allowed => exact h.pushMark hupdate
  | entry =>
      simp only [Event.substitute, Event.update, h.inFlow, h.keyAllowed, hcolumn, hlength]
        at hupdate ⊢
      split at hupdate
      next hflow =>
        rw [if_pos hflow]
        exact h.pushMark hupdate
      next hflow =>
        split at hupdate
        · cases hupdate
        next hallowed =>
          rw [if_neg hflow, if_neg hallowed]
          exact (h.openBlock _ _ rfl).pushMark hupdate
  | key =>
      simp only [Event.substitute, Event.update, h.inFlow, h.keyAllowed, hcolumn, hlength]
        at hupdate ⊢
      split at hupdate
      next hflow =>
        rw [if_pos hflow]
        exact h.pushMark hupdate
      next hflow =>
        split at hupdate
        · cases hupdate
        next hallowed =>
          rw [if_neg hflow, if_neg hallowed]
          exact (h.openBlock _ _ rfl).pushMark hupdate
  | value => exact h.updateValue hkept hupdate
  | node b => exact h.pushNode hkept hupdate
  | block text => exact h.pushMark hupdate
  | plain s broken => exact h.pushNode hkept hupdate

/-! ### In front of a token -/

/-- **Possible keys expire** unless one that has to be a key would. -/
theorem expireKeys_eq_ok_iff :
    l.expireKeys = .ok l' ↔
      (∀ k, some k ∈ l.keys → isFresh l.cursor k = false → k.required = false) ∧
        l' = { l with keys := l.keys.map (Option.filter (isFresh l.cursor)) } := by
  have hfilter (k : Option PossibleKey) :
      (if (k.any fun k => !isFresh l.cursor k) = true then none else k) =
        k.filter (isFresh l.cursor) := by
    cases k with
    | none => rfl
    | some k => cases hk : isFresh l.cursor k <;> simp [hk, Option.filter]
  rw [expireKeys]
  simp only [hfilter]
  split
  next hlate =>
    refine iff_of_false error_ne_ok fun h => ?_
    obtain ⟨k, hk, hlate⟩ := List.any_eq_true.mp hlate
    cases k with
    | none => cases hlate
    | some k =>
        obtain ⟨hfresh, hrequired⟩ := Bool.and_eq_true_iff.mp hlate
        have hnot := h.1 k hk (by simpa using hfresh)
        rw [Option.any_some, hnot] at hrequired
        cases hrequired
  next hlate =>
    refine ⟨fun h => ⟨fun k hk hfresh => Bool.eq_false_iff.mpr fun hrequired => hlate ?_,
      (Except.ok.inj h).symm⟩, fun h => h.2 ▸ rfl⟩
    refine List.any_eq_true.mpr ⟨some k, hk, ?_⟩
    rw [Option.any_some, Option.any_some, hfresh, hrequired]
    rfl

/-- The first part of a step: the gap is passed over, and the blocks are closed that end there. -/
def approach (l : Lexer) : Except Fault Lexer := do
  let l ← l.skipGap.expireKeys
  .ok (l.closeBlocks l.cursor.column)

theorem step_eq (l : Lexer) : l.step = l.approach >>= readToken := by
  rw [step, approach]
  cases l.skipGap.expireKeys <;> rfl

/-- The place in front of the next token. -/
def nextPlace (l : Lexer) : Cursor := (gap l.inFlow l.keyAllowed l.cursor).2

/-- The lexer at the place in front of the next token, with the keys that are still possible. -/
def atNext (l : Lexer) : Lexer :=
  { l with
    cursor := l.nextPlace
    keyAllowed := (gap l.inFlow l.keyAllowed l.cursor).1
    keys := l.keys.map (Option.filter (isFresh l.nextPlace)) }

theorem approach_eq_ok_iff :
    l.approach = .ok l' ↔
      (∀ k, some k ∈ l.keys → isFresh l.nextPlace k = false → k.required = false) ∧
        l' = l.atNext.closeBlocks l.nextPlace.column := by
  rw [approach, skipGap_eq]
  constructor
  · intro h
    obtain ⟨l₁, hexpire, h⟩ := exists_of_bind_ok h
    obtain ⟨hrequired, rfl⟩ := expireKeys_eq_ok_iff.mp hexpire
    cases h
    exact ⟨hrequired, rfl⟩
  · rintro ⟨hrequired, rfl⟩
    rw [expireKeys_eq_ok_iff.mpr ⟨hrequired, rfl⟩]
    rfl

@[simp]
theorem keys_closeBlocks (column : Int) (l : Lexer) : (l.closeBlocks column).keys = l.keys := by
  rw [closeBlocks]
  split <;> rfl

theorem onward_approach (h : l.approach = .ok l') : Onward none l l' := by
  obtain ⟨-, rfl⟩ := approach_eq_ok_iff.mp h
  refine .trans ?_ (onward_closeBlocks _ _)
  exact .of_eq rfl rfl rfl

theorem cursor_of_approach (h : l.approach = .ok l') : l'.cursor = l.nextPlace := by
  obtain ⟨-, rfl⟩ := approach_eq_ok_iff.mp h
  exact cursor_closeBlocks _ _

theorem rest_of_approach (h : l.approach = .ok l') : l'.cursor.rest <:+ l.cursor.rest := by
  rw [cursor_of_approach h]
  exact (agree_gap l.inFlow l.keyAllowed (within_over l.cursor).kept).1

/-- The keys that are still possible are on the line. -/
theorem line_of_approach (h : l.approach = .ok l') {k : PossibleKey} (hk : some k ∈ l'.keys) :
    k.place.line = l'.cursor.line := by
  rw [cursor_of_approach h]
  obtain ⟨-, rfl⟩ := approach_eq_ok_iff.mp h
  rw [keys_closeBlocks] at hk
  obtain ⟨k', -, hfilter⟩ := List.mem_map.mp hk
  obtain ⟨-, hfresh⟩ := Option.filter_eq_some_iff.mp hfilter
  exact beq_iff_eq.mp (Bool.and_eq_true_iff.mp hfresh).1

/-- In front of a token, the open blocks are not to the right of it. -/
theorem innerColumn_of_approach (h : l.approach = .ok l') (hl : l.IsGrounded)
    (hflow : l'.inFlow = false) : l'.innerColumn ≤ l'.cursor.column + 1 := by
  rw [cursor_of_approach h]
  obtain ⟨-, rfl⟩ := approach_eq_ok_iff.mp h
  rw [Lexer.inFlow, keys_closeBlocks] at hflow
  have hle : (l.atNext.closeBlocks l.nextPlace.column).indent ≤ l.nextPlace.column :=
    indent_closeBlocks_le hflow hl (by omega)
  rw [innerColumn]
  omega

theorem KeyTwin.isFresh {k₁ k₂ : PossibleKey} (h : KeyTwin t k₁ k₂) (hkept : Kept t c₁ c₂) :
    Lexer.isFresh c₂ k₂ = Lexer.isFresh c₁ k₁ := by
  obtain ⟨x, hx, -⟩ := hkept
  obtain ⟨n, hn₁, hn₂⟩ := hx.index
  obtain ⟨m, hm₁, hm₂⟩ := h.index
  rw [Lexer.isFresh, Lexer.isFresh, h.line, hx.line, hn₁, hn₂, hm₁, hm₂]
  congr 1
  exact decide_eq_decide.mpr (by omega)

/-- **The gap in front of a token** keeps lexers together, unless the first one gets past the
place. -/
theorem Twin.approach (h : Twin t r v l₁ l₂) (hkept : Kept t l₁.cursor l₂.cursor)
    (happroach : l₁.approach = .ok l₁') :
    Past t l₁'.cursor ∨
      ∃ l₂', l₂.approach = .ok l₂' ∧ Twin t r v l₁' l₂' ∧ Kept t l₁'.cursor l₂'.cursor := by
  obtain ⟨-, hgap⟩ := agree_gap l₁.inFlow l₁.keyAllowed hkept
  rw [cursor_of_approach happroach]
  refine hgap.imp_right ?_
  rintro ⟨hallowed, hnext⟩
  obtain ⟨hrequired, rfl⟩ := approach_eq_ok_iff.mp happroach
  have hplace : l₂.nextPlace = (gap l₁.inFlow l₁.keyAllowed l₂.cursor).2 := by
    rw [nextPlace, h.inFlow, h.keyAllowed]
  have hnext : Kept t l₁.nextPlace l₂.nextPlace := by
    rw [hplace]
    exact hnext
  refine ⟨_, approach_eq_ok_iff.mpr ⟨fun k₂ hk₂ hfresh => ?_, rfl⟩, ?_, ?_⟩
  · obtain ⟨k₁, hk₁, hkey⟩ := h.exists_mem hk₂
    rw [hkey.isFresh hnext] at hfresh
    exact hkey.required.trans (hrequired k₁ hk₁ hfresh)
  · rw [hnext.column]
    refine Twin.closeBlocks ?_ _
    refine ⟨h.tokens, h.indent, h.outer, ?_, ?_⟩
    · rw [atNext, h.inFlow, h.keyAllowed]
      exact hallowed
    · refine List.rel_map ?_ h.keys
      intro k₁ k₂ hkey
      cases hkey with
      | none => exact .none
      | @some k₁ k₂ hkey =>
          rw [Option.filter, Option.filter, hkey.isFresh hnext]
          by_cases hfresh : isFresh l₁.nextPlace k₁ = true
          · rw [if_pos hfresh, if_pos hfresh]
            exact .some hkey
          · rw [if_neg hfresh, if_neg hfresh]
            exact .none
  · rw [cursor_closeBlocks]
    exact hnext

/-! ### The end of the text -/

/-- What is open is closed at the end of the text. -/
theorem run_zero_eq_ok_iff {ts : List Token} :
    run 0 l = .ok ts ↔ (∀ k, l.keys.head? = some (some k) → k.required = false) ∧
      ts = (l.closeBlocks (-1)).tokens := by
  rw [run]
  constructor
  · intro h
    obtain ⟨l', hdrop, h⟩ := exists_of_bind_ok h
    obtain ⟨hrequired, rfl⟩ := dropKey_eq_ok_iff.mp hdrop
    cases h
    rw [keys_closeBlocks] at hrequired
    exact ⟨hrequired, rfl⟩
  · rintro ⟨hrequired, rfl⟩
    rw [dropKey_eq_ok_iff.mpr ⟨by rwa [keys_closeBlocks], rfl⟩]
    rfl

theorem Twin.run_zero (h : Twin t r v l₁ l₂) {ts : List Token} (hrun : run 0 l₁ = .ok ts) :
    run 0 l₂ = .ok (ts.map (Token.substitute r v)) := by
  obtain ⟨hrequired, rfl⟩ := run_zero_eq_ok_iff.mp hrun
  refine run_zero_eq_ok_iff.mpr ⟨fun k₂ hk₂ => ?_, (h.closeBlocks (-1)).tokens.symm⟩
  obtain ⟨k₁, hk₁, hkey⟩ := h.exists_head? hk₂
  exact hkey.required.trans (hrequired k₁ hk₁)

end Lexer

end RealmDirectory.Yaml
