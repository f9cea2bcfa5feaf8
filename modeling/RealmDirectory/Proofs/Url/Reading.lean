import RealmDirectory.Proofs.Url.Authority
import RealmDirectory.Proofs.Url.Path

/-!
# URLs, read back

Reading a URL normalises it, and what comes out is read as it is: a URL that can carry credentials
is written as a text that gives the same URL again. The parts of the text are found at the first
number sign, the first question mark, the first colon and the first slash behind the authority, and
each part that stands in front of one of these holds none of them.

## Main definitions

* `Url.IsWritten`: the URLs that reading leaves, as far as they can carry credentials.

## Main results

* `Url.isWritten_of_parse`: what is read is such a URL.
* `Url.parse_render`: such a URL is read back.
* `Url.parse_render_of_parse`: a URL that was read and can carry credentials is read back.
-/

namespace RealmDirectory

namespace Url

variable {u : Url} {a : Authority} {s : List Char}

/-! ### Schemes -/

/-- The schemes that reading leaves: in lower case, with a letter in front. -/
structure IsScheme (s : List Char) : Prop where
  first : ∃ c r, s = c :: r ∧ c.isAlpha = true
  chars : ∀ c ∈ s, isSchemeChar c = true ∧ c.toLower = c

/-- A scheme is read back in front of its colon. -/
theorem cutScheme_append (h : IsScheme s) (rest : List Char) :
    cutScheme (s ++ ':' :: rest) = some (String.ofList s, rest) := by
  obtain ⟨c, r, rfl, hc⟩ := h.first
  obtain ⟨htake, hdrop⟩ := Text.takeWhile_dropWhile_append (fun d hd => (h.chars d hd).1)
    (show isSchemeChar ':' = false from rfl) rest
  have hlower : (c :: r).map Char.toLower = c :: r :=
    (List.map_congr_left fun d hd => (h.chars d hd).2).trans (List.map_id _)
  rw [List.cons_append] at htake hdrop ⊢
  simp only [cutScheme, htake, hdrop, hlower, hc, Bool.not_true, Bool.false_eq_true, if_false]

theorem isSchemeChar_toLower {c : Char} (hc : isSchemeChar c = true) :
    isSchemeChar c.toLower = true := by
  by_cases hupper : c.isUpper = true
  · have halpha : c.toLower.isAlpha = true := by simp [Char.isAlpha, hupper]
    simp [isSchemeChar, Char.isAlphanum, halpha]
  · rwa [Char.toLower_eq_of_not_isUpper hupper]

/-- What is read as a scheme is one that reading leaves. -/
theorem isScheme_of_cutScheme {scheme : String} {rest : List Char}
    (h : cutScheme s = some (scheme, rest)) : IsScheme scheme.toList := by
  unfold cutScheme at h
  split at h
  · next c tail =>
      split at h
      · cases h
      next hc =>
      have hc : c.isAlpha = true := by simpa using hc
      split at h
      · next hdrop =>
          obtain ⟨rfl, -⟩ := Prod.mk.inj (Option.some.inj h)
          have hfirst : isSchemeChar c = true := by simp [isSchemeChar, Char.isAlphanum, hc]
          rw [String.toList_ofList]
          refine ⟨⟨c.toLower, _, by rw [List.takeWhile_cons_of_pos hfirst, List.map_cons],
            (Char.isAlpha_toLower_eq_isAlpha c).trans hc⟩, fun d hd => ?_⟩
          obtain ⟨e, he, rfl⟩ := List.mem_map.mp hd
          exact ⟨isSchemeChar_toLower (List.all_eq_true.mp List.all_takeWhile e he),
            Char.toLower_toLower_eq_toLower e⟩
      · cases h
  · cases h

/-! ### The text of a URL -/

/-- A part of a URL behind the character that announces it. -/
def optionalText (c : Char) : Option String → List Char
  | some part => c :: part.toList
  | none => []

/-- What is read of a URL behind the two slashes, up to its query. -/
def bodyText (a : Authority) (u : Url) : List Char := (renderAuthority a).toList ++ u.path.toList

/-- The text of a URL with an authority. -/
theorem toList_render (h : u.authority = some a) :
    u.render.toList = u.scheme.toList ++ ':' :: '/' :: '/' ::
      ((bodyText a u ++ optionalText '?' u.query) ++ optionalText '#' u.fragment) := by
  rw [render, h]
  cases u.query <;> cases u.fragment <;> simp [bodyText, optionalText]

/-- A URL with an authority that reading leaves. -/
structure IsWritten (u : Url) (a : Authority) : Prop where
  scheme : IsScheme u.scheme.toList
  notFile : u.scheme ≠ "file"
  authority_eq : u.authority = some a
  authority : a.IsWritten u.scheme
  path : IsWrittenPath (isKnown u.scheme) u.path.toList
  query : ∀ q, u.query = some q → ∀ c ∈ q.toList, inQueryOf (isKnown u.scheme) c = false
  fragment : ∀ f, u.fragment = some f → ∀ c ∈ f.toList, Percent.inFragment c = false

/-- The part behind a character is cut off again, when the character does not stand before it. -/
theorem cutOptional_append {c : Char} (h : c ∉ s) (part : Option String) :
    cutOptional c (s ++ optionalText c part) = (s, part.map String.toList) := by
  cases part with
  | none => rw [optionalText, List.append_nil, cutOptional, Text.cut_of_notMem h]; rfl
  | some part => rw [optionalText, cutOptional, Text.cut_append_cons h]; rfl

/-- Nothing is passed over at the start of a text without such characters. -/
theorem dropWhile_eq_self {p : Char → Bool} (h : ∀ c ∈ s, p c = false) : s.dropWhile p = s := by
  cases s with
  | nil => rfl
  | cons c r => rw [List.dropWhile_cons_of_neg (by rw [h c List.mem_cons_self]; decide)]

/-- Nothing is cleaned from a text of visible characters. -/
theorem clean_eq_self (h : ∀ c ∈ s, 0x20 < c.toNat) : clean s = s := by
  have hends : ∀ c ∈ s, decide (c.toNat ≤ 0x20) = false := fun c hc =>
    decide_eq_false (Nat.not_le.mpr (h c hc))
  have hbreaks : s.filter (fun c => !(c == '\t' || c == '\n' || c == '\r')) = s := by
    refine List.filter_eq_self.mpr fun c hc => ?_
    have hne : ∀ d : Char, d.toNat ≤ 0x20 → c ≠ d := fun d hd heq =>
      absurd (heq ▸ h c hc) (Nat.not_lt.mpr hd)
    simp [hne '\t' (by decide), hne '\n' (by decide), hne '\r' (by decide)]
  rw [clean]
  simp only [dropWhile_eq_self hends,
    dropWhile_eq_self fun c hc => hends c (List.mem_reverse.mp hc), List.reverse_reverse, hbreaks]

/-! ### Characters of the parts -/

/-- What stands in a path: slashes, and characters that need no encoding there. -/
theorem mem_path {known : Bool} (h : IsWrittenPath known s) {c : Char} (hc : c ∈ s) :
    c = '/' ∨ Percent.inPath c = false := by
  rcases h with ⟨rfl, -⟩ | ⟨segments, -, hsegments, rfl⟩
  · cases hc
  · obtain ⟨t, ht, hc⟩ := List.mem_flatMap.mp hc
    exact (List.mem_cons.mp hc).imp_right ((hsegments t ht).encoded c)

/-- What stands up to the query is visible, and neither announces the query nor the fragment. -/
theorem mem_bodyText (h : u.IsWritten a) {c : Char} (hc : c ∈ bodyText a u) :
    0x20 < c.toNat ∧ c ≠ '?' ∧ c ≠ '#' := by
  rcases List.mem_append.mp hc with hc | hc
  · have hchar := isInAuthority_of_mem h.authority hc
    exact ⟨hchar.visible, hchar.question, hchar.number⟩
  · rcases mem_path h.path hc with rfl | hset
    · exact ⟨by decide, by decide, by decide⟩
    · exact ⟨Percent.isSet_inPath.visible rfl hset, Percent.ne_of_eq_false hset rfl,
        Percent.ne_of_eq_false hset rfl⟩

/-- What stands in a query is visible, and does not announce the fragment. -/
theorem mem_query (h : u.IsWritten a) {c : Char} (hc : c ∈ optionalText '?' u.query) :
    0x20 < c.toNat ∧ c ≠ '#' := by
  cases hquery : u.query with
  | none =>
      rw [hquery] at hc
      cases hc
  | some q =>
      rw [hquery] at hc
      rcases List.mem_cons.mp hc with rfl | hc
      · exact ⟨by decide, by decide⟩
      · have hset : Percent.inQuery c = false :=
          (Bool.or_eq_false_iff.mp (h.query q hquery c hc)).1
        exact ⟨Percent.isSet_inQuery.visible rfl hset, Percent.ne_of_eq_false hset rfl⟩

/-- What stands in a fragment is visible. -/
theorem mem_fragment (h : u.IsWritten a) {c : Char} (hc : c ∈ optionalText '#' u.fragment) :
    0x20 < c.toNat := by
  cases hfragment : u.fragment with
  | none =>
      rw [hfragment] at hc
      cases hc
  | some f =>
      rw [hfragment] at hc
      rcases List.mem_cons.mp hc with rfl | hc
      · decide
      · exact Percent.isSet_inFragment.visible rfl (h.fragment f hfragment c hc)

/-- Nothing but the fragment is announced by a number sign. -/
theorem number_notMem (h : u.IsWritten a) :
    '#' ∉ '/' :: '/' :: (bodyText a u ++ optionalText '?' u.query) := by
  intro hmem
  rcases List.mem_cons.mp hmem with heq | hmem
  · cases heq
  rcases List.mem_cons.mp hmem with heq | hmem
  · cases heq
  rcases List.mem_append.mp hmem with hc | hc
  · exact (mem_bodyText h hc).2.2 rfl
  · exact (mem_query h hc).2 rfl

/-- Nothing up to the query is announced by a question mark. -/
theorem question_notMem (h : u.IsWritten a) : '?' ∉ '/' :: '/' :: bodyText a u := by
  intro hmem
  rcases List.mem_cons.mp hmem with heq | hmem
  · cases heq
  rcases List.mem_cons.mp hmem with heq | hmem
  · cases heq
  · exact (mem_bodyText h hmem).2.1 rfl

/-- What may stand in a scheme is visible. -/
theorem visible_of_isSchemeChar {c : Char} (hc : isSchemeChar c = true) : 0x20 < c.toNat := by
  simp only [isSchemeChar, Char.isAlphanum, Char.isAlpha, Char.isUpper, Char.isLower, Char.isDigit,
    Bool.or_eq_true, Bool.and_eq_true, decide_eq_true_eq, beq_iff_eq, ge_iff_le,
    UInt32.le_iff_toNat_le] at hc
  rcases hc with ((((⟨h, -⟩ | ⟨h, -⟩) | ⟨h, -⟩) | rfl) | rfl) | rfl
  · exact Nat.lt_of_lt_of_le (by decide) h
  · exact Nat.lt_of_lt_of_le (by decide) h
  · exact Nat.lt_of_lt_of_le (by decide) h
  all_goals decide

/-- **The whole text is visible.** -/
theorem visible_of_mem_render (h : u.IsWritten a) {c : Char} (hc : c ∈ u.render.toList) :
    0x20 < c.toNat := by
  rw [toList_render h.authority_eq] at hc
  simp only [List.mem_append, List.mem_cons] at hc
  rcases hc with hc | rfl | rfl | rfl | (hc | hc) | hc
  · exact visible_of_isSchemeChar (h.scheme.chars c hc).1
  · decide
  · decide
  · decide
  · exact (mem_bodyText h hc).1
  · exact (mem_query h hc).1
  · exact mem_fragment h hc

/-! ### Reading back -/

/-- An authority with a host is written in some way. -/
theorem exists_renderAuthority_eq (h : u.IsWritten a) :
    ∃ c r, (renderAuthority a).toList = c :: r ∧ IsInAuthority c := by
  have hne : (renderAuthority a).toList ≠ [] := by
    intro hnil
    by_cases hnone : a.username = "" ∧ a.password = ""
    · rw [toList_renderAuthority_of_eq hnone] at hnil
      exact Host.render_ne_nil h.authority.host (List.append_eq_nil_iff.mp hnil).1
    · rw [toList_renderAuthority_of_ne hnone] at hnil
      cases (List.append_eq_nil_iff.mp hnil).2
  obtain ⟨c, r, hcr⟩ := List.exists_cons_of_ne_nil hne
  exact ⟨c, r, hcr, isInAuthority_of_mem h.authority (hcr ▸ List.mem_cons_self)⟩

/-- What follows the two slashes begins with the authority, whatever the scheme. -/
theorem authorityText?_slashes (h : u.IsWritten a) :
    authorityText? u.scheme ('/' :: '/' :: bodyText a u) = some (bodyText a u) := by
  obtain ⟨c, r, hcr, hc⟩ := exists_renderAuthority_eq h
  have hbody : bodyText a u = c :: (r ++ u.path.toList) := by
    rw [bodyText, hcr, List.cons_append]
  have hslash : (c == '/' || c == '\\') = false := by simp [hc.slash, hc.backslash]
  rw [authorityText?]
  split
  · rw [List.dropWhile_cons_of_pos rfl, List.dropWhile_cons_of_pos rfl, hbody,
      List.dropWhile_cons_of_neg (by simpa using hslash)]
  · rfl

/-- The authority ends where the path begins. -/
theorem takeWhile_dropWhile_bodyText (h : u.IsWritten a) {p : Char → Bool}
    (hp : ∀ c, IsInAuthority c → p c = true) (hslash : p '/' = false) :
    (bodyText a u).takeWhile p = (renderAuthority a).toList ∧
      (bodyText a u).dropWhile p = u.path.toList := by
  have hauthority : ∀ c ∈ (renderAuthority a).toList, p c = true := fun c hc =>
    hp c (isInAuthority_of_mem h.authority hc)
  rw [bodyText]
  rcases h.path with ⟨hnil, -⟩ | ⟨segments, hne, -, hpath⟩
  · rw [hnil, List.append_nil]
    exact ⟨List.takeWhile_eq_self_iff.mpr hauthority, List.dropWhile_eq_nil_iff.mpr hauthority⟩
  · obtain ⟨t, segments, rfl⟩ := List.exists_cons_of_ne_nil hne
    rw [hpath, slashed, List.flatMap_cons, List.cons_append]
    exact Text.takeWhile_dropWhile_append hauthority hslash _

/-- A part that needs no encoding is encoded as itself. -/
theorem encodePart_eq_self {set : Char → Bool} {part : Option String}
    (h : ∀ t, part = some t → ∀ c ∈ t.toList, set c = false) :
    (part.map String.toList).map (fun t => String.ofList (Percent.encode set t)) = part := by
  cases part with
  | none => rfl
  | some t =>
      rw [Option.map_some, Option.map_some, Percent.encode_eq_self (h t rfl), String.ofList_toList]

/-- **A URL that can carry credentials is read back.** -/
theorem parse_render (h : u.IsWritten a) : parse u.render = .ok u := by
  have hfragment : cutOptional '#' ('/' :: '/' ::
      ((bodyText a u ++ optionalText '?' u.query) ++ optionalText '#' u.fragment)) =
      ('/' :: '/' :: (bodyText a u ++ optionalText '?' u.query), u.fragment.map String.toList) :=
    cutOptional_append (number_notMem h) u.fragment
  have hquery : cutOptional '?' ('/' :: '/' :: (bodyText a u ++ optionalText '?' u.query)) =
      ('/' :: '/' :: bodyText a u, u.query.map String.toList) :=
    cutOptional_append (question_notMem h) u.query
  obtain ⟨htake, hdrop⟩ := takeWhile_dropWhile_bodyText h
    (p := fun c => c != '/' && (!isKnown u.scheme || c != '\\'))
    (fun c hc => by simp [hc.slash, hc.backslash]) (by simp)
  rw [parse, clean_eq_self fun c => visible_of_mem_render h, toList_render h.authority_eq,
    cutScheme_append h.scheme]
  simp only [hfragment, hquery, String.ofList_toList, authorityText?_slashes h, htake, hdrop,
    parseAuthority_renderAuthority h.authority, bind, Except.bind, List.nil_append,
    parsePath_eq_self h.path, encodePart_eq_self h.query, encodePart_eq_self h.fragment,
    ← h.authority_eq]

/-! ### What reading leaves -/

theorem isSet_inQueryOf (known : Bool) : Percent.IsSet (inQueryOf known) := by
  cases known with
  | false =>
      have heq : inQueryOf false = Percent.inQuery := by
        funext c
        simp [inQueryOf]
      exact heq ▸ Percent.isSet_inQuery
  | true =>
      have heq : inQueryOf true = fun c => Percent.inQuery c || ['\''].contains c := by
        funext c
        by_cases hc : c = '\'' <;> simp [inQueryOf, hc]
      exact heq ▸ Percent.isSet_inQuery.or (by decide)

/-- A part that was encoded needs no encoding. -/
theorem eq_false_of_mem_encodePart {set : Char → Bool} (hset : Percent.IsSet set)
    {part : Option (List Char)} {t : String}
    (h : part.map (fun t => String.ofList (Percent.encode set t)) = some t) {c : Char}
    (hc : c ∈ t.toList) : set c = false := by
  obtain ⟨t, -, rfl⟩ := Option.map_eq_some_iff.mp h
  rw [String.toList_ofList] at hc
  exact Percent.eq_false_of_mem_encode hset hc

/-- A URL that can carry credentials has a host, and is not one of a file. -/
theorem carrier?_eq_some_iff :
    u.carrier? = some a ↔ u.scheme ≠ "file" ∧ u.authority = some a ∧ a.host ≠ .empty := by
  rw [carrier?]
  split
  · next hfile => simp [hfile]
  · next hfile => simp [hfile, Option.filter_eq_some_iff]

/-- **A URL that is read and can carry credentials is one that reading leaves.** -/
theorem isWritten_of_parse {text : String} (h : parse text = .ok u) (ha : u.carrier? = some a) :
    u.IsWritten a := by
  obtain ⟨hfile, hauthority, hhost⟩ := carrier?_eq_some_iff.mp ha
  rw [parse] at h
  split at h
  · cases h
  next scheme rest hscheme =>
  simp only at h
  split at h
  · next s hauthority? =>
      obtain ⟨⟨found, left⟩, hread, h⟩ := exists_of_bind_ok h
      obtain rfl := Except.ok.inj h
      obtain rfl := Option.some.inj hauthority
      exact
        { scheme := isScheme_of_cutScheme hscheme
          notFile := hfile
          authority_eq := rfl
          authority := isWritten_of_parseAuthority hread hhost
          path := isWrittenPath_parsePath _ _
          query := fun q hq c => eq_false_of_mem_encodePart (isSet_inQueryOf _) hq
          fragment := fun f hf c => eq_false_of_mem_encodePart Percent.isSet_inFragment hf }
  · obtain rfl := Except.ok.inj h
    cases hauthority

/-- **A URL that was read and can carry credentials is read back** from what is written for it. -/
theorem parse_render_of_parse {text : String} (h : parse text = .ok u)
    (ha : u.carrier? = some a) : parse u.render = .ok u :=
  parse_render (isWritten_of_parse h ha)

end Url

end RealmDirectory
