import RealmDirectory.Config.Environment
import RealmDirectory.Proofs.Text.Splitting

/-!
# Expanding as one scan

The references of a text are found first, with their places, and their values are then put between
slices of the text. The same comes out of one scan from left to right, which takes the text for
pieces: a reference where one is written, and a single character anywhere else. What a piece
stands for does not depend on the other ones, and the pieces do not depend on the environment, so
that a value that is put in is never looked at again.

## Main definitions

* `Reference.IsProper`, `Reference.text`: the references, and how they are written.
* `Piece`, `Piece.value`, `Piece.values`: the pieces of a text, and what they stand for.
* `Pieces`: the pieces that the scan finds in a text.

## Main results

* `Reference.read?_eq_some_iff`: a reference is read where one is written.
* `Piece.values_eq_error_iff`: the error is the first piece that is missing.
* `Pieces.exists_pieces`, `Pieces.unique`: every text is scanned in one way.
* `Pieces.expandFrom_eq`: slices and values are what the pieces stand for.
* `expand_eq_scan`: expanding a text is scanning it.
-/

namespace RealmDirectory

namespace Reference

/-! ### How references are written -/

/-- A reference that can be written: its name is an identifier, and no closing brace stands in its
default. -/
structure IsProper (r : Reference) : Prop where
  name : ∃ c s, r.name = c :: s ∧ isNameStart c = true ∧ ∀ d ∈ s, isNameChar d = true
  default : ∀ d, r.default? = some d → '\x7d' ∉ d

/-- What follows the name of a reference. -/
def tail (r : Reference) : List Char :=
  match r.default? with
  | none => ['\x7d']
  | some d => ':' :: '-' :: (d ++ ['\x7d'])

/-- The text of a reference. -/
def text (r : Reference) : List Char := '$' :: '\x7b' :: (r.name ++ r.tail)

/-- What follows a name is read back. -/
theorem readDefault?_tail {r : Reference} (h : r.IsProper) (rest : List Char) :
    readDefault? (r.tail ++ rest) = some (r.default?, rest) := by
  rw [tail]
  cases hdefault : r.default? with
  | none => rfl
  | some d =>
      have hd : ∀ c ∈ d, (c != '\x7d') = true := fun c hc =>
        bne_iff_ne.mpr fun heq => h.default d hdefault (heq ▸ hc)
      obtain ⟨htake, hdrop⟩ :=
        Text.takeWhile_dropWhile_append hd (d := '\x7d') rfl rest
      simp only [List.cons_append, List.append_assoc, List.nil_append, readDefault?, hdrop, htake]

/-- What can be read behind a name was written there. -/
theorem eq_tail_of_readDefault? {s rest : List Char} {default? : Option (List Char)}
    (h : readDefault? s = some (default?, rest)) (name : List Char) :
    s = (⟨name, default?⟩ : Reference).tail ++ rest ∧ ∀ d, default? = some d → '\x7d' ∉ d := by
  unfold readDefault? at h
  split at h
  · obtain ⟨rfl, rfl⟩ := Prod.mk.inj (Option.some.inj h)
    exact ⟨rfl, fun d hd => nomatch hd⟩
  · next r =>
      split at h
      · next c behind hdrop =>
          obtain ⟨rfl, rfl⟩ := Prod.mk.inj (Option.some.inj h)
          obtain ⟨hc, heq, hall⟩ := Text.eq_of_dropWhile_eq_cons hdrop
          obtain rfl : c = '\x7d' := by simpa using hc
          refine ⟨?_, fun d hd hmem => ?_⟩
          · simp only [tail, List.cons_append, List.append_assoc, List.nil_append]
            rw [← heq]
          · obtain rfl := Option.some.inj hd
            exact absurd (hall _ hmem) (by decide)
      · cases h
  · cases h

/-- Neither the closing brace nor the colon stands in a name. -/
theorem exists_tail_eq_cons (r : Reference) :
    ∃ c s, r.tail = c :: s ∧ isNameChar c = false := by
  rw [tail]
  cases r.default? with
  | none => exact ⟨_, _, rfl, rfl⟩
  | some d => exact ⟨_, _, rfl, rfl⟩

/-- **A reference is read where one is written**, and nowhere else. -/
theorem read?_eq_some_iff {s rest : List Char} {r : Reference} :
    read? s = some (r, rest) ↔ r.IsProper ∧ s = r.text ++ rest := by
  constructor
  · intro h
    unfold read? at h
    split at h
    · next c s =>
        split at h
        · cases h
        · next hstart =>
            obtain ⟨⟨default?, behind⟩, hread, heq⟩ := Option.map_eq_some_iff.mp h
            obtain ⟨rfl, rfl⟩ := Prod.mk.inj heq
            obtain ⟨htail, hdefault⟩ :=
              eq_tail_of_readDefault? hread (c :: s.takeWhile isNameChar)
            refine ⟨⟨⟨c, _, rfl, by simpa using hstart, fun d hd => ?_⟩, hdefault⟩, ?_⟩
            · exact List.all_eq_true.mp List.all_takeWhile d hd
            · simp only [text, List.cons_append, List.append_assoc]
              rw [← htail, List.takeWhile_append_dropWhile]
    · cases h
  · rintro ⟨h, rfl⟩
    obtain ⟨name, default?⟩ := r
    obtain ⟨c, s, rfl, hstart, hname⟩ := h.name
    obtain ⟨d, t, htail, hd⟩ := exists_tail_eq_cons ⟨c :: s, default?⟩
    obtain ⟨htake, hdrop⟩ := Text.takeWhile_dropWhile_append hname hd (t ++ rest)
    have hread := readDefault?_tail h rest
    rw [htail, List.cons_append] at hread
    simp only [text, htail, List.cons_append, List.append_assoc, read?, hstart, Bool.not_true,
      Bool.false_eq_true, if_false, htake, hdrop, hread, Option.map_some]

end Reference

/-! ### Pieces of a text -/

/-- A piece of a text: a character that stands for itself, or a reference. -/
inductive Piece where
  | plain (c : Char)
  | reference (r : Reference)
  deriving DecidableEq, Repr

namespace Piece

/-- The characters of a piece. -/
def text : Piece → List Char
  | plain c => [c]
  | reference r => r.text

/-- What a piece stands for in an environment: a character stands for itself, and a reference for
the value of its variable when that is set, also when it is empty, and for its default otherwise.
Without either, the variable is missing. -/
def value (env : Environment) : Piece → Except String (List Char)
  | plain c => .ok [c]
  | reference r =>
      match env.get? (String.ofList r.name), r.default? with
      | some v, _ => .ok v.toList
      | none, some d => .ok d
      | none, none => .error (String.ofList r.name)

/-- What pieces stand for one behind the other, or the name of the first variable that is
missing. -/
def values (env : Environment) (l : List Piece) : Except String (List Char) :=
  (l.mapM (value env)).map List.flatten

variable {env : Environment} {p : Piece} {l : List Piece}

/-- The value of the first piece stands in front. -/
theorem values_cons_of_ok {v : List Char} (h : p.value env = .ok v) :
    values env (p :: l) = (values env l).map fun t => v ++ t := by
  rw [values, values, List.mapM_cons, h]
  cases l.mapM (value env) <;> rfl

/-- Nothing comes out when the first piece is missing. -/
theorem values_cons_of_error {name : String} (h : p.value env = .error name) :
    values env (p :: l) = .error name := by
  rw [values, List.mapM_cons, h]
  rfl

/-- The text that is put in for a reference is what the reference stands for as a piece. -/
theorem value_reference (env : Environment) (r : Reference) :
    (reference r).value env =
      match r.value? env with
      | some v => .ok v
      | none => .error (String.ofList r.name) := by
  rw [value, Reference.value?]
  cases env.get? (String.ofList r.name) with
  | some v => rfl
  | none => cases r.default? <;> rfl

/-- Only references to variables that are not set and have no default are missing. -/
theorem value_eq_error_iff {name : String} :
    p.value env = .error name ↔
      ∃ r, p = reference r ∧ String.ofList r.name = name ∧ env.get? name = none ∧
        r.default? = none := by
  constructor
  · intro h
    cases p with
    | plain c => cases h
    | reference r =>
        rw [value] at h
        cases hset : env.get? (String.ofList r.name) with
        | some v =>
            rw [hset] at h
            cases h
        | none =>
            cases hdefault : r.default? with
            | some d =>
                rw [hset, hdefault] at h
                cases h
            | none =>
                rw [hset, hdefault] at h
                obtain rfl := Except.error.inj h
                exact ⟨r, rfl, rfl, hset, hdefault⟩
  · rintro ⟨r, rfl, rfl, hset, hdefault⟩
    rw [value, hset, hdefault]

/-- **The error is the first piece that is missing.** -/
theorem values_eq_error_iff {name : String} :
    values env l = .error name ↔
      ∃ before p after, l = before ++ p :: after ∧ p.value env = .error name ∧
        ∀ q ∈ before, ∃ v, q.value env = .ok v := by
  induction l with
  | nil => exact ⟨(nomatch ·), fun ⟨before, p, after, h, _⟩ => absurd h (by simp)⟩
  | cons p l ih =>
      cases hp : p.value env with
      | error missing =>
          rw [values_cons_of_error hp]
          constructor
          · intro h
            obtain rfl := Except.error.inj h
            exact ⟨[], p, l, rfl, hp, fun q hq => nomatch hq⟩
          · rintro ⟨before, q, after, heq, hq, hbefore⟩
            cases before with
            | nil =>
                obtain ⟨rfl, rfl⟩ := List.cons.inj heq
                rw [← hp, hq]
            | cons q' before =>
                obtain ⟨rfl, rfl⟩ := List.cons.inj heq
                obtain ⟨v, hv⟩ := hbefore p List.mem_cons_self
                rw [hv] at hp
                cases hp
      | ok v =>
          have hmap : values env (p :: l) = .error name ↔ values env l = .error name := by
            rw [values_cons_of_ok hp]
            cases values env l <;> simp [Except.map]
          rw [hmap, ih]
          constructor
          · rintro ⟨before, q, after, rfl, hq, hbefore⟩
            refine ⟨p :: before, q, after, rfl, hq, fun q' hq' => ?_⟩
            rcases List.mem_cons.mp hq' with rfl | hq'
            · exact ⟨v, hp⟩
            · exact hbefore q' hq'
          · rintro ⟨before, q, after, heq, hq, hbefore⟩
            cases before with
            | nil =>
                obtain ⟨rfl, rfl⟩ := List.cons.inj heq
                rw [hp] at hq
                cases hq
            | cons q' before =>
                obtain ⟨rfl, rfl⟩ := List.cons.inj heq
                exact ⟨before, q, after, rfl, hq,
                  fun r hr => hbefore r (List.mem_cons_of_mem p hr)⟩

end Piece

/-- **One scan from left to right**: where a reference is written it is a piece, and anywhere else
one character is. -/
inductive Pieces : List Char → List Piece → Prop
  | nil : Pieces [] []
  | reference {r : Reference} {rest : List Char} {l : List Piece} (hr : r.IsProper)
      (h : Pieces rest l) : Pieces (r.text ++ rest) (.reference r :: l)
  | plain {c : Char} {rest : List Char} {l : List Piece}
      (hc : ∀ r behind, Reference.IsProper r → c :: rest ≠ r.text ++ behind)
      (h : Pieces rest l) : Pieces (c :: rest) (.plain c :: l)

namespace Pieces

variable {s : List Char} {l : List Piece}

/-- Nothing is lost: the pieces are the text. -/
theorem flatMap_text (h : Pieces s l) : l.flatMap Piece.text = s := by
  induction h with
  | nil => rfl
  | reference hr h ih => rw [List.flatMap_cons, ih, Piece.text]
  | plain hc h ih => rw [List.flatMap_cons, ih, Piece.text, List.singleton_append]

/-- A character begins no reference when none is read there. -/
theorem ne_text_of_read?_eq_none (h : Reference.read? s = none) (r : Reference)
    (behind : List Char) (hr : r.IsProper) : s ≠ r.text ++ behind := by
  rintro rfl
  rw [Reference.read?_eq_some_iff.mpr ⟨hr, rfl⟩] at h
  cases h

/-- Every text has pieces. -/
theorem exists_pieces (s : List Char) : ∃ l, Pieces s l := by
  induction hn : s.length using Nat.strongRecOn generalizing s with
  | _ n ih =>
      cases s with
      | nil => exact ⟨[], .nil⟩
      | cons c rest =>
          cases hread : Reference.read? (c :: rest) with
          | none =>
              obtain ⟨l, hl⟩ := ih rest.length (by rw [← hn]; exact Nat.lt_succ_self _) rest rfl
              exact ⟨_, .plain (ne_text_of_read?_eq_none hread) hl⟩
          | some found =>
              obtain ⟨r, behind⟩ := found
              obtain ⟨hr, heq⟩ := Reference.read?_eq_some_iff.mp hread
              obtain ⟨l, hl⟩ := ih behind.length (by rw [← hn, heq]; simp [Reference.text]; omega)
                behind rfl
              exact ⟨.reference r :: l, heq ▸ .reference hr hl⟩

/-- Where no dollar sign stands, each character is a piece. -/
theorem append_of_not_mem {x rest : List Char} (hx : '$' ∉ x) (h : Pieces rest l) :
    Pieces (x ++ rest) (x.map .plain ++ l) := by
  induction x with
  | nil => exact h
  | cons c x ih =>
      rw [List.mem_cons, not_or] at hx
      refine .plain (fun r behind _ heq => hx.1 ?_) (ih hx.2)
      exact (List.cons.inj heq).1.symm

/-- What begins with a reference begins with no other one, and nothing else follows it. -/
theorem reference_eq {r r' : Reference} {rest rest' : List Char} (hr : r.IsProper)
    (hr' : r'.IsProper) (h : r.text ++ rest = r'.text ++ rest') : r' = r ∧ rest' = rest := by
  have hread : Reference.read? (r.text ++ rest) = some (r, rest) :=
    Reference.read?_eq_some_iff.mpr ⟨hr, rfl⟩
  rw [Reference.read?_eq_some_iff.mpr ⟨hr', h⟩] at hread
  exact Prod.mk.inj (Option.some.inj hread)

/-- A text has its pieces in one way. -/
theorem unique {l' : List Piece} (h : Pieces s l) (h' : Pieces s l') : l' = l := by
  induction h generalizing l' with
  | nil =>
      generalize heq : ([] : List Char) = s at h'
      cases h' with
      | nil => rfl
      | reference => cases heq
      | plain => cases heq
  | @reference r rest l hr h ih =>
      generalize heq : r.text ++ rest = s at h'
      cases h' with
      | nil => cases heq
      | reference hr' h' =>
          obtain ⟨rfl, rfl⟩ := reference_eq hr hr' heq
          rw [ih h']
      | plain hc => exact absurd heq.symm (hc r rest hr)
  | @plain c rest l hc h ih =>
      generalize heq : c :: rest = s at h'
      cases h' with
      | nil => cases heq
      | reference hr' => exact absurd heq (hc _ _ hr')
      | plain _ h' =>
          obtain ⟨rfl, rfl⟩ := List.cons.inj heq
          rw [ih h']

/-- Nothing is read at a character that is a piece. -/
theorem read?_eq_none {c : Char} {rest : List Char}
    (hc : ∀ r behind, Reference.IsProper r → c :: rest ≠ r.text ++ behind) :
    Reference.read? (c :: rest) = none := by
  cases hread : Reference.read? (c :: rest) with
  | none => rfl
  | some found =>
      obtain ⟨hr, heq⟩ := Reference.read?_eq_some_iff.mp hread
      exact absurd heq (hc found.1 found.2 hr)

/-! ### Slices between references -/

/-- No reference is looked for in what belongs to one. -/
theorem occurrencesFrom_append (x rest : List Char) (place : Nat) :
    occurrencesFrom x.length place (x ++ rest) = occurrencesFrom 0 (place + x.length) rest := by
  induction x generalizing place with
  | nil => rfl
  | cons c x ih =>
      rw [List.length_cons, List.cons_append, occurrencesFrom, ih]
      congr 1
      omega

/-- At a reference it is found, and the search goes on behind it. -/
theorem occurrencesFrom_text {r : Reference} (hr : r.IsProper) (rest : List Char) (place : Nat) :
    occurrencesFrom 0 place (r.text ++ rest) =
      ⟨r, place, place + r.text.length⟩ ::
        occurrencesFrom 0 (place + r.text.length) rest := by
  have hread : Reference.read? (r.text ++ rest) = some (r, rest) :=
    Reference.read?_eq_some_iff.mpr ⟨hr, rfl⟩
  obtain ⟨behind, htext⟩ : ∃ behind, r.text = '$' :: behind := ⟨_, rfl⟩
  have hskip : (behind ++ rest).length - rest.length = behind.length := by simp
  have hlength : place + r.text.length = place + 1 + behind.length := by
    rw [htext, List.length_cons]
    omega
  rw [htext, List.cons_append] at hread
  rw [hlength, htext, List.cons_append, occurrencesFrom, hread]
  simp only [hskip, occurrencesFrom_append]

/-- **The slices and the values between them are what the pieces stand for.** The induction is on
the pieces; a slice is open from `last` to the place of the scan, and only a reference closes
it. -/
theorem expandFrom_eq (h : Pieces s l) (env : Environment) (done : List Char) {last : Nat}
    (hlast : last ≤ done.length) :
    expandFrom env (done ++ s) last (occurrencesFrom 0 done.length s) =
      (Piece.values env l).map fun t => done.drop last ++ t := by
  induction h generalizing done last with
  | nil => simp [occurrencesFrom, expandFrom, Piece.values, pure, Except.pure, Except.map]
  | @reference r rest l hr h ih =>
      have ih := ih (done ++ r.text) (Nat.le_refl _)
      rw [List.drop_length, List.append_assoc, List.length_append] at ih
      have hslice : ((done ++ (r.text ++ rest)).drop last).take (done.length - last) =
          done.drop last := by
        rw [List.drop_append_of_le_length hlast, ← List.length_drop, List.take_left']
        rfl
      rw [occurrencesFrom_text hr, expandFrom]
      cases hv : r.value? env with
      | none =>
          have hmissing : (Piece.reference r).value env = .error (String.ofList r.name) := by
            rw [Piece.value_reference, hv]
          rw [Piece.values_cons_of_error hmissing]
          rfl
      | some v =>
          have hok : (Piece.reference r).value env = .ok v := by rw [Piece.value_reference, hv]
          rw [Piece.values_cons_of_ok hok]
          simp only [ih, hslice]
          cases Piece.values env l <;> rfl
  | @plain c rest l hc h ih =>
      have hstill : last ≤ (done ++ [c]).length := by
        rw [List.length_append]
        exact Nat.le_add_right_of_le hlast
      have ih := ih (done ++ [c]) hstill
      rw [List.append_assoc, List.singleton_append, List.length_append, List.length_singleton,
        List.drop_append_of_le_length hlast] at ih
      have hok : (Piece.plain c).value env = .ok [c] := rfl
      rw [occurrencesFrom, read?_eq_none hc, Piece.values_cons_of_ok hok]
      simp only [ih]
      cases Piece.values env l <;> simp [Except.map]

/-- A text without a reference has characters for pieces. -/
theorem values_eq_ok (h : Pieces s l)
    (hnone : ∀ before r after, Reference.IsProper r → s ≠ before ++ r.text ++ after)
    (env : Environment) : Piece.values env l = .ok s := by
  induction h with
  | nil => rfl
  | @reference r rest l hr h ih => exact absurd rfl (hnone [] r rest hr)
  | @plain c rest l hc h ih =>
      have hok : (Piece.plain c).value env = .ok [c] := rfl
      have hrest := ih fun before r after hr heq =>
        hnone (c :: before) r after hr (by rw [heq]; rfl)
      rw [Piece.values_cons_of_ok hok, hrest]
      rfl

end Pieces

/-- **Expanding a text is one scan from left to right.** The scan takes the text for pieces, in one
way and whatever the environment is, and loses nothing of it. What comes out is what the pieces
stand for, one behind the other; the error names the first reference whose variable is not set and
which has no default; and a text in which no reference is written comes back. -/
theorem expand_eq_scan (text : String) :
    ∃ pieces,
      (∀ l, Pieces text.toList l ↔ l = pieces) ∧
      pieces.flatMap Piece.text = text.toList ∧
      (∀ env, expand env text =
        ((pieces.mapM (Piece.value env)).map fun values => String.ofList values.flatten)) ∧
      (∀ env name, expand env text = .error name ↔
        ∃ before r after, pieces = before ++ .reference r :: after ∧
          String.ofList r.name = name ∧ env.get? name = none ∧ r.default? = none ∧
          ∀ p ∈ before, ∃ v, p.value env = .ok v) ∧
      ((∃ before r after, r.IsProper ∧ text.toList = before ++ Reference.text r ++ after) ∨
        ∀ env, expand env text = .ok text) := by
  obtain ⟨pieces, h⟩ := Pieces.exists_pieces text.toList
  have hexpand : ∀ env, expand env text = (Piece.values env pieces).map String.ofList := by
    intro env
    have heq := h.expandFrom_eq env [] (Nat.le_refl 0)
    rw [List.nil_append, List.length_nil] at heq
    rw [expand, heq]
    cases Piece.values env pieces <;> rfl
  refine ⟨pieces, fun l => ⟨h.unique, fun heq => heq ▸ h⟩, h.flatMap_text, fun env => ?_,
    fun env name => ?_, ?_⟩
  · rw [hexpand, Piece.values]
    cases pieces.mapM (Piece.value env) <;> rfl
  · have hmap : expand env text = .error name ↔ Piece.values env pieces = .error name := by
      rw [hexpand]
      cases Piece.values env pieces <;> simp [Except.map]
    rw [hmap, Piece.values_eq_error_iff]
    constructor
    · rintro ⟨before, p, after, heq, hp, hbefore⟩
      obtain ⟨r, rfl, hr⟩ := Piece.value_eq_error_iff.mp hp
      exact ⟨before, r, after, heq, hr.1, hr.2.1, hr.2.2, hbefore⟩
    · rintro ⟨before, r, after, heq, hname, hset, hdefault, hbefore⟩
      exact ⟨before, _, after, heq,
        Piece.value_eq_error_iff.mpr ⟨r, rfl, hname, hset, hdefault⟩, hbefore⟩
  · by_cases hnone : ∃ before r after, r.IsProper ∧
        text.toList = before ++ Reference.text r ++ after
    · exact .inl hnone
    · refine .inr fun env => ?_
      have hplain := h.values_eq_ok (fun before r after hr heq =>
        hnone ⟨before, r, after, hr, heq⟩) env
      rw [hexpand, hplain, Except.map, String.ofList_toList]

/-- A variable that is set, one that has a default, and a text that is no reference because no name
begins with a digit. The value looks like a reference and is put in as it is; without the variable
nothing comes out. -/
theorem expand_eq_scan_near_miss :
    let miss := ['$', '\x7b', '1', ':', '-', 'x', '\x7d']
    let text := "a$\x7bA\x7d $\x7bB:-b\x7d " ++ String.ofList miss
    let pieces := .plain 'a' :: .reference ⟨['A'], none⟩ :: .plain ' ' ::
      .reference ⟨['B'], some ['b']⟩ :: .plain ' ' :: miss.map Piece.plain
    (∀ l, Pieces text.toList l ↔ l = pieces) ∧
      expand (KeyedList.empty.insert "A" "$\x7bB\x7d") text = .ok "a$\x7bB\x7d b $\x7b1:-x\x7d" ∧
      expand ((KeyedList.empty.insert "A" "").insert "B" "c") text = .ok "a c $\x7b1:-x\x7d" ∧
      expand (KeyedList.empty.insert "B" "c") text = .error "A" := by
  intro miss text pieces
  have hset : Reference.IsProper ⟨['A'], none⟩ := ⟨⟨'A', [], rfl, by decide, nofun⟩, nofun⟩
  have hdefault : Reference.IsProper ⟨['B'], some ['b']⟩ :=
    ⟨⟨'B', [], rfl, by decide, nofun⟩, by simp⟩
  have hmiss : Pieces miss (miss.map .plain) :=
    .plain (Pieces.ne_text_of_read?_eq_none (by decide))
      (Pieces.nil.append_of_not_mem (x := miss.tail) (by decide))
  have hblank : '$' ∉ [' '] := by decide
  have hscan : Pieces text.toList pieces := by
    have htext : text.toList = ['a'] ++ (Reference.text ⟨['A'], none⟩ ++
        ([' '] ++ (Reference.text ⟨['B'], some ['b']⟩ ++ ([' '] ++ miss)))) := by decide
    rw [htext]
    exact .append_of_not_mem (x := ['a']) (by decide) (.reference hset
      (.append_of_not_mem hblank (.reference hdefault (.append_of_not_mem hblank hmiss))))
  obtain ⟨found, hunique, -, hvalues, herror, -⟩ := expand_eq_scan text
  obtain rfl := (hunique pieces).mp hscan
  refine ⟨hunique, (hvalues _).trans rfl, (hvalues _).trans rfl, ?_⟩
  refine (herror _ "A").mpr ⟨[.plain 'a'], ⟨['A'], none⟩, _, rfl, rfl, by decide, rfl, ?_⟩
  exact List.forall_mem_singleton.mpr ⟨['a'], rfl⟩

end RealmDirectory
