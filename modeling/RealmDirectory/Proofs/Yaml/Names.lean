import RealmDirectory.Proofs.Yaml.Scalars

/-!
# Names are read locally

Names of anchors, tags and directives are words, and what stands between the words of a directive
are blanks on its line. So the names of two texts that are the same up to a blank are the same in
front of it.

## Main results

* `within_readName`, `within_readTag`: names and tags.
* `agree_readDirective`: directives.
-/

namespace RealmDirectory.Yaml

open Lexer

variable {t : Tails} {c₁ c₂ d₁ : Cursor}

/-! ### Names -/

theorem isNameChar_eq_false_of_isBlank (b : Char) (h : isBlank b = true) :
    isNameChar b = false := by
  simp only [isBlank, Bool.or_eq_true, beq_iff_eq] at h
  rcases h with rfl | rfl <;> rfl

theorem isTagChar_eq_false_of_isBlank (wide : Bool) (b : Char) (h : isBlank b = true) :
    isTagChar wide b = false := by
  simp only [isBlank, Bool.or_eq_true, beq_iff_eq] at h
  rcases h with rfl | rfl <;> cases wide <;> rfl

theorem isDigit_eq_false_of_isBlank (b : Char) (h : isBlank b = true) : b.isDigit = false := by
  simp only [isBlank, Bool.or_eq_true, beq_iff_eq] at h
  rcases h with rfl | rfl <;> rfl

/-- The name of an anchor or alias is the same in both texts. -/
theorem within_readName (h : Within t (c₁.advance 1) (c₂.advance 1)) {name : List Char}
    (hread : readName c₁ = .ok (name, d₁)) :
    d₁.rest <:+ (c₁.advance 1).rest ∧
      ∃ d₂, readName c₂ = .ok (name, d₂) ∧ Within t d₁ d₂ := by
  obtain ⟨hsame, hwithin⟩ := h.takeWhile isNameChar_eq_false_of_isBlank
  have hwithin := hwithin _ (Nat.le_refl _)
  simp only [readName, hsame, hwithin.isWordEnd, hwithin.head?] at hread ⊢
  split at hread
  · cases hread
  next hname =>
    cases hread
    rw [if_neg hname]
    exact ⟨Cursor.rest_advance_suffix _ _, _, rfl, hwithin⟩

/-! ### Tags -/

theorem readHandle_eq (c : Cursor) :
    readHandle c =
      if c.head? ≠ some '!' then .error .badTag
      else
        let name := (c.advance 1).rest.takeWhile isNameChar
        let d := (c.advance 1).advance name.length
        if d.head? = some '!' then .ok ('!' :: (name ++ ['!']), d.advance 1)
        else .ok ('!' :: name, d) := by
  rw [readHandle]
  simp only [Cursor.advance_add]
  rfl

/-- The handle of a tag is the same in both texts. -/
theorem within_readHandle (h : Within t c₁ c₂) {handle : List Char}
    (hread : readHandle c₁ = .ok (handle, d₁)) :
    d₁.rest <:+ (c₁.advance 1).rest ∧
      ∃ d₂, readHandle c₂ = .ok (handle, d₂) ∧ Within t d₁ d₂ := by
  rw [readHandle_eq] at hread ⊢
  rw [h.head?]
  by_cases hmark : c₁.head? ≠ some '!'
  · rw [if_pos hmark] at hread
    cases hread
  rw [if_neg hmark] at hread ⊢
  have hnext := h.advance_one (not_not.mp hmark) (by decide)
  obtain ⟨hsame, hwithin⟩ := hnext.takeWhile isNameChar_eq_false_of_isBlank
  have hwithin := hwithin _ (Nat.le_refl _)
  have hsuffix := (c₁.advance 1).rest_advance_suffix
    ((c₁.advance 1).rest.takeWhile isNameChar).length
  simp only [hsame, hwithin.head?] at hread ⊢
  by_cases hclose : ((c₁.advance 1).advance
      ((c₁.advance 1).rest.takeWhile isNameChar).length).head? = some '!'
  · rw [if_pos hclose] at hread ⊢
    cases hread
    exact ⟨(Cursor.rest_advance_suffix _ 1).trans hsuffix, _, rfl,
      hwithin.advance_one hclose (by decide)⟩
  · rw [if_neg hclose] at hread ⊢
    cases hread
    exact ⟨hsuffix, _, rfl, hwithin⟩

/-- The text of a tag is the same in both texts. -/
theorem Within.readTagText (h : Within t c₁ c₂) (wide : Bool) :
    (readTagText wide c₂).1 = (readTagText wide c₁).1 ∧
      Within t (readTagText wide c₁).2 (readTagText wide c₂).2 := by
  obtain ⟨hsame, hwithin⟩ := h.takeWhile (isTagChar_eq_false_of_isBlank wide)
  refine ⟨hsame, ?_⟩
  simp only [Lexer.readTagText, hsame]
  exact hwithin _ (Nat.le_refl _)

theorem rest_readTagText_suffix (wide : Bool) (c : Cursor) :
    (readTagText wide c).2.rest <:+ c.rest := c.rest_advance_suffix _

/-- Reads a tag up to its end. -/
def tagBody (c : Cursor) : Except Fault (Token × Cursor) :=
  if c.second? = some '<' then
    let p := readTagText true (c.advance 2)
    if p.1.isEmpty || p.2.head? ≠ some '>' then .error .badTag
    else .ok (Token.tag [] p.1, p.2.advance 1)
  else
    readHandle c >>= fun q =>
      let p := readTagText false q.2
      if 1 < q.1.length && q.1.getLast? == some '!' then
        if p.1.isEmpty then .error .badTag else .ok (Token.tag q.1 p.1, p.2)
      else
        let suffix := q.1.drop 1 ++ p.1
        .ok (if suffix.isEmpty then Token.tag [] ['!'] else Token.tag ['!'] suffix, p.2)

theorem readTag_eq (flow : Bool) (c : Cursor) :
    readTag flow c = tagBody c >>= fun p =>
      if isWordEnd p.2.rest || (flow && p.2.head? == some ',') then .ok p else .error .badTag := by
  rw [readTag, tagBody]
  by_cases hangle : c.second? = some '<'
  · simp only [if_pos hangle]
    generalize Lexer.readTagText true (c.advance 2) = p
    split <;> rfl
  · simp only [if_neg hangle]
    cases readHandle c with
    | error f => rfl
    | ok q =>
        simp only [ok_bind]
        split
        · split <;> rfl
        · rfl

theorem within_tagBody (h : Within t c₁ c₂) (hmark : c₁.head? = some '!') {tag : Token}
    (hread : tagBody c₁ = .ok (tag, d₁)) :
    d₁.rest <:+ (c₁.advance 1).rest ∧ ∃ d₂, tagBody c₂ = .ok (tag, d₂) ∧ Within t d₁ d₂ := by
  have hnext := h.advance_one hmark (by decide)
  have hsecond (c : Cursor) : c.second? = (c.advance 1).head? := rfl
  rw [tagBody] at hread ⊢
  rw [hsecond, hnext.head?]
  rw [hsecond] at hread
  by_cases hangle : (c₁.advance 1).head? = some '<'
  · have hafter := hnext.advance_one hangle (by decide)
    simp only [Cursor.advance_add] at hafter
    obtain ⟨hsame, hwithin⟩ := hafter.readTagText true
    have hsuffix : (Lexer.readTagText true (c₁.advance 2)).2.rest <:+ (c₁.advance 1).rest := by
      refine (rest_readTagText_suffix true _).trans ?_
      rw [← Cursor.advance_add c₁ 1 1]
      exact Cursor.rest_advance_suffix _ 1
    rw [if_pos hangle] at hread ⊢
    simp only [hsame, hwithin.head?] at hread ⊢
    split at hread
    · cases hread
    next hbad =>
      cases hread
      rw [if_neg hbad]
      have hclose : (Lexer.readTagText true (c₁.advance 2)).2.head? = some '>' := by
        simpa using (Bool.or_eq_false_iff.mp (Bool.of_not_eq_true hbad)).2
      exact ⟨(Cursor.rest_advance_suffix _ 1).trans hsuffix, _, rfl,
        hwithin.advance_one hclose (by decide)⟩
  · rw [if_neg hangle] at hread ⊢
    obtain ⟨⟨handle, e₁⟩, hhandle, hread⟩ := exists_of_bind_ok hread
    obtain ⟨hsuffix, e₂, hhandle₂, he⟩ := within_readHandle h hhandle
    obtain ⟨hsame, hwithin⟩ := he.readTagText false
    have hsuffix := (rest_readTagText_suffix false e₁).trans hsuffix
    rw [hhandle₂, ok_bind]
    simp only [hsame] at hread ⊢
    split at hread
    · split at hread
      · cases hread
      next hnamed hempty =>
        cases hread
        rw [if_pos hnamed, if_neg hempty]
        exact ⟨hsuffix, _, rfl, hwithin⟩
    next hnamed =>
      cases hread
      rw [if_neg hnamed]
      exact ⟨hsuffix, _, rfl, hwithin⟩

/-- **A tag is the same in both texts.** -/
theorem within_readTag {flow : Bool} (h : Within t c₁ c₂) (hmark : c₁.head? = some '!')
    {tag : Token} (hread : readTag flow c₁ = .ok (tag, d₁)) :
    d₁.rest <:+ (c₁.advance 1).rest ∧
      ∃ d₂, readTag flow c₂ = .ok (tag, d₂) ∧ Within t d₁ d₂ := by
  rw [readTag_eq] at hread ⊢
  obtain ⟨⟨tag', e₁⟩, hbody, hread⟩ := exists_of_bind_ok hread
  obtain ⟨hsuffix, e₂, hbody₂, he⟩ := within_tagBody h hmark hbody
  rw [hbody₂, ok_bind]
  simp only [he.isWordEnd, he.head?] at hread ⊢
  split at hread
  next hend =>
    cases hread
    rw [if_pos hend]
    exact ⟨hsuffix, e₂, rfl, he⟩
  · cases hread

/-- A tag is no scalar. -/
theorem ne_scalar_of_readTag {flow : Bool} {c : Cursor} {tag : Token}
    (hread : readTag flow c = .ok (tag, d₁)) (plain : Bool) (text : List Char) :
    tag ≠ .scalar plain text := by
  rw [readTag_eq] at hread
  obtain ⟨⟨tag', e⟩, hbody, hread⟩ := exists_of_bind_ok hread
  obtain rfl : tag' = tag := by
    split at hread
    · cases hread
      rfl
    · cases hread
  rw [tagBody] at hbody
  split at hbody
  · simp only at hbody
    split at hbody
    · cases hbody
    · cases hbody
      exact Token.noConfusion
  · obtain ⟨⟨handle, e₁⟩, -, hbody⟩ := exists_of_bind_ok hbody
    simp only at hbody
    split at hbody
    · split at hbody
      · cases hbody
      · cases hbody
        exact Token.noConfusion
    · cases hbody
      split <;> exact Token.noConfusion

/-! ### Directives -/

/-- Who reads something behind blanks that does not begin with a dollar sign is still in front of
the place. -/
theorem Kept.within_of_head? (h : Kept t c₁ c₂) (hne : c₁.head? ≠ some '$') : Within t c₁ c₂ := by
  rcases h.within_or with hwithin | ⟨hx, -, r₁, b, r₂, h₁, -⟩
  · exact hwithin
  · refine absurd ?_ hne
    rw [Cursor.head?, hx.rest₁, h₁]
    rfl

theorem within_readVersionNumber (h : Kept t c₁ c₂) {n : Nat}
    (hread : readVersionNumber c₁ = .ok (n, d₁)) :
    d₁.rest <:+ c₁.rest ∧ ∃ d₂, readVersionNumber c₂ = .ok (n, d₂) ∧ Within t d₁ d₂ := by
  have hwithin : Within t c₁ c₂ := h.within_of_head? fun hhead => by
    obtain ⟨r, hrest⟩ := Cursor.exists_of_head? hhead
    rw [readVersionNumber, hrest] at hread
    cases hread
  obtain ⟨hsame, hwithin⟩ := hwithin.takeWhile isDigit_eq_false_of_isBlank
  simp only [readVersionNumber, hsame] at hread ⊢
  split at hread
  · cases hread
  next hdigits =>
    cases hread
    rw [if_neg hdigits]
    exact ⟨Cursor.rest_advance_suffix _ _, _, rfl, hwithin _ (Nat.le_refl _)⟩

/-- Reads what follows the name of a directive, up to the end of its words. -/
def directiveBody (name : List Char) (c : Cursor) : Except Fault (Token × Cursor) :=
  if name = ['Y', 'A', 'M', 'L'] then
    readVersionNumber (c.skipWhile isBlank) >>= fun p =>
      if p.2.head? ≠ some '.' then .error .badDirective
      else
        readVersionNumber (p.2.advance 1) >>= fun q =>
          if p.1 = 1 ∧ (q.1 = 1 ∨ q.1 = 2) then .ok (Token.version p.1 q.1, q.2)
          else .error .badDirective
  else if name = ['T', 'A', 'G'] then
    readHandle (c.skipWhile isBlank) >>= fun p =>
      if p.1 ≠ ['!'] ∧ p.1.getLast? ≠ some '!' ∨ !p.2.head?.any isBlank then .error .badDirective
      else
        let q := readTagText true (p.2.skipWhile isBlank)
        if q.1.isEmpty || !isWordEnd q.2.rest then .error .badDirective
        else .ok (Token.tagHandle p.1 q.1, q.2)
  else .error .badDirective

/-- Passes over the rest of the line of a directive. -/
def directiveEnd (tag : Token) (c : Cursor) : Except Fault (Token × Cursor) :=
  let d := (c.skipWhile isBlank).skipComment
  if isLineEnd d.rest then .ok (tag, d.skipBreak) else .error .badDirective

theorem readDirective_eq (c : Cursor) :
    readDirective c =
      let name := (c.advance 1).rest.takeWhile isNameChar
      directiveBody name ((c.advance 1).advance name.length) >>= fun p => directiveEnd p.1 p.2 := by
  rw [readDirective]
  simp only [directiveBody]
  generalize (c.advance 1).rest.takeWhile isNameChar = name
  generalize ((c.advance 1).advance name.length).skipWhile isBlank = d
  by_cases hyaml : name = ['Y', 'A', 'M', 'L']
  · simp only [if_pos hyaml]
    cases readVersionNumber d with
    | error f => rfl
    | ok p =>
        simp only [ok_bind]
        by_cases hdot : p.2.head? ≠ some '.'
        · simp only [if_pos hdot]
          rfl
        · simp only [if_neg hdot]
          cases readVersionNumber (p.2.advance 1) with
          | error f => rfl
          | ok q =>
              simp only [ok_bind]
              split <;> rfl
  · simp only [if_neg hyaml]
    by_cases htag : name = ['T', 'A', 'G']
    · simp only [if_pos htag]
      cases readHandle d with
      | error f => rfl
      | ok p =>
          simp only [ok_bind]
          split
          · rfl
          · split <;> rfl
    · simp only [if_neg htag]
      rfl

theorem rest_directiveEnd_suffix {tag tag' : Token} {c : Cursor}
    (hread : directiveEnd tag c = .ok (tag', d₁)) : d₁.rest <:+ c.rest := by
  rw [directiveEnd] at hread
  split at hread
  · cases hread
    exact (Cursor.rest_skipBreak_suffix _).trans ((Cursor.rest_skipComment_suffix _).trans
      (Cursor.rest_skipWhile_suffix _ _))
  · cases hread

theorem agree_directiveEnd (h : Kept t c₁ c₂) {tag tag' : Token}
    (hread : directiveEnd tag c₁ = .ok (tag', d₁)) :
    Past t d₁ ∨ ∃ d₂, directiveEnd tag c₂ = .ok (tag', d₂) ∧ Kept t d₁ d₂ := by
  have hsuffix := Cursor.rest_skipBreak_suffix (c₁.skipWhile isBlank).skipComment
  simp only [directiveEnd] at hread ⊢
  split at hread
  next hend =>
    cases hread
    rcases (h.skipWhile (p := isBlank) fun _ => id).skipComment with hpast | hkept
    · exact .inl (hpast.of_suffix hsuffix)
    · rw [hkept.isLineEnd, if_pos hend]
      exact .inr ⟨_, rfl, hkept.skipBreak⟩
  · cases hread

/-- The version behind the name of its directive. -/
theorem agree_versionBody (h : Within t c₁ c₂) {tag : Token}
    (hread : directiveBody ['Y', 'A', 'M', 'L'] c₁ = .ok (tag, d₁)) :
    d₁.rest <:+ c₁.rest ∧
      ∃ d₂, directiveBody ['Y', 'A', 'M', 'L'] c₂ = .ok (tag, d₂) ∧ Kept t d₁ d₂ := by
  have hblanks := h.kept.skipWhile (p := isBlank) fun _ => id
  rw [directiveBody, if_pos rfl] at hread ⊢
  obtain ⟨⟨major, e₁⟩, hmajor, hread⟩ := exists_of_bind_ok hread
  obtain ⟨hsuffix, e₂, hmajor₂, he⟩ := within_readVersionNumber hblanks hmajor
  rw [hmajor₂, ok_bind]
  simp only [he.head?] at hread ⊢
  split at hread
  · cases hread
  next hdot =>
    rw [if_neg hdot]
    obtain ⟨⟨minor, a₁⟩, hminor, hread⟩ := exists_of_bind_ok hread
    have hnext := he.advance_one (not_not.mp hdot) (by decide)
    obtain ⟨hsuffix', a₂, hminor₂, ha⟩ := within_readVersionNumber hnext.kept hminor
    rw [hminor₂, ok_bind]
    simp only at hread ⊢
    split at hread
    next hversion =>
      cases hread
      rw [if_pos hversion]
      exact ⟨hsuffix'.trans ((Cursor.rest_advance_suffix _ 1).trans
        (hsuffix.trans (Cursor.rest_skipWhile_suffix _ _))), a₂, rfl, ha.kept⟩
    · cases hread

/-- The text of a tag behind blanks is the same, or goes past the place. -/
theorem Kept.readTagText (wide : Bool) (h : Kept t c₁ c₂) :
    Past t (readTagText wide c₁).2 ∨
      (readTagText wide c₂).1 = (readTagText wide c₁).1 ∧
        Within t (readTagText wide c₁).2 (readTagText wide c₂).2 := by
  rcases h.within_or with hwithin | ⟨hx, -, r₁, b, r₂, hr₁, -⟩
  · exact .inr (hwithin.readTagText wide)
  · refine .inl (hx.past_advance (hr₁ ▸ List.cons_ne_nil '$' r₁) ?_)
    rw [hx.rest₁, List.nil_append, hr₁]
    exact Nat.succ_le_succ (Nat.zero_le _)

/-- The handle and the tag behind the name of their directive. -/
theorem agree_tagHandleBody (h : Within t c₁ c₂) {tag : Token}
    (hread : directiveBody ['T', 'A', 'G'] c₁ = .ok (tag, d₁)) :
    d₁.rest <:+ c₁.rest ∧
      (Past t d₁ ∨ ∃ d₂, directiveBody ['T', 'A', 'G'] c₂ = .ok (tag, d₂) ∧ Kept t d₁ d₂) := by
  have hblanks := h.kept.skipWhile (p := isBlank) fun _ => id
  rw [directiveBody, if_neg (by decide), if_pos rfl] at hread ⊢
  obtain ⟨⟨handle, e₁⟩, hhandle, hread⟩ := exists_of_bind_ok hread
  have hwithin : Within t (c₁.skipWhile isBlank) (c₂.skipWhile isBlank) :=
    hblanks.within_of_head? fun hhead => by
      rw [readHandle, hhead] at hhandle
      cases hhandle
  obtain ⟨hsuffix, e₂, hhandle₂, he⟩ := within_readHandle hwithin hhandle
  have hsuffix := hsuffix.trans
    ((Cursor.rest_advance_suffix _ 1).trans (c₁.rest_skipWhile_suffix isBlank))
  rw [hhandle₂, ok_bind]
  simp only [he.head?] at hread ⊢
  split at hread
  · cases hread
  next hproper =>
    rw [if_neg hproper]
    split at hread
    · cases hread
    next hend =>
      cases hread
      refine ⟨(rest_readTagText_suffix true (e₁.skipWhile isBlank)).trans
        ((Cursor.rest_skipWhile_suffix _ _).trans hsuffix), ?_⟩
      refine ((he.kept.skipWhile (p := isBlank) fun _ => id).readTagText true).imp_right ?_
      rintro ⟨hsame, hkept⟩
      simp only [hsame, hkept.isWordEnd]
      rw [if_neg hend]
      exact ⟨_, rfl, hkept.kept⟩

theorem agree_directiveBody (h : Within t c₁ c₂) {name : List Char} {tag : Token}
    (hread : directiveBody name c₁ = .ok (tag, d₁)) :
    d₁.rest <:+ c₁.rest ∧
      (Past t d₁ ∨ ∃ d₂, directiveBody name c₂ = .ok (tag, d₂) ∧ Kept t d₁ d₂) := by
  by_cases hyaml : name = ['Y', 'A', 'M', 'L']
  · subst hyaml
    exact (agree_versionBody h hread).imp_right .inr
  by_cases htag : name = ['T', 'A', 'G']
  · subst htag
    exact agree_tagHandleBody h hread
  · rw [directiveBody, if_neg hyaml, if_neg htag] at hread
    cases hread

/-- **Directives are read locally.** -/
theorem agree_readDirective (h : Within t (c₁.advance 1) (c₂.advance 1)) {tag : Token}
    (hread : readDirective c₁ = .ok (tag, d₁)) :
    d₁.rest <:+ (c₁.advance 1).rest ∧
      (Past t d₁ ∨ ∃ d₂, readDirective c₂ = .ok (tag, d₂) ∧ Kept t d₁ d₂) := by
  obtain ⟨hsame, hwithin⟩ := h.takeWhile isNameChar_eq_false_of_isBlank
  rw [readDirective_eq] at hread ⊢
  simp only [hsame] at hread ⊢
  obtain ⟨⟨tag', e₁⟩, hbody, hread⟩ := exists_of_bind_ok hread
  obtain ⟨hsuffix, hrun⟩ := agree_directiveBody (hwithin _ (Nat.le_refl _)) hbody
  have hend := rest_directiveEnd_suffix hread
  refine ⟨hend.trans (hsuffix.trans (Cursor.rest_advance_suffix _ _)), ?_⟩
  rcases hrun with hpast | ⟨e₂, hbody₂, he⟩
  · exact .inl (hpast.of_suffix hend)
  · rw [hbody₂, ok_bind]
    exact agree_directiveEnd he hread

/-- A directive is no scalar. -/
theorem ne_scalar_of_readDirective {c : Cursor} {tag : Token}
    (hread : readDirective c = .ok (tag, d₁)) (plain : Bool) (text : List Char) :
    tag ≠ .scalar plain text := by
  rw [readDirective_eq] at hread
  obtain ⟨⟨tag', e⟩, hbody, hread⟩ := exists_of_bind_ok hread
  obtain rfl : tag' = tag := by
    rw [directiveEnd] at hread
    simp only at hread
    split at hread
    · cases hread
      rfl
    · cases hread
  rw [directiveBody] at hbody
  split at hbody
  · obtain ⟨p, -, hbody⟩ := exists_of_bind_ok hbody
    split at hbody
    · cases hbody
    · obtain ⟨q, -, hbody⟩ := exists_of_bind_ok hbody
      split at hbody
      · cases hbody
        exact Token.noConfusion
      · cases hbody
  split at hbody
  · obtain ⟨p, -, hbody⟩ := exists_of_bind_ok hbody
    split at hbody
    · cases hbody
    · simp only at hbody
      split at hbody
      · cases hbody
      · cases hbody
        exact Token.noConfusion
  · cases hbody

end RealmDirectory.Yaml
