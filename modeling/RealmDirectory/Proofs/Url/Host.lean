import Mathlib
import RealmDirectory.Proofs.Url.Address
import RealmDirectory.Url.Basic

/-!
# Hosts, read back

The host of a URL is kept as it was understood: a name with its encodings undone, or made, and in
lower case under the schemes that browsers know, and an address as a number. What is written for it
gives the same host when it is read under the same scheme. It holds no character that ends a host,
so that a reader finds the same host in front of a port.

## Main definitions

* `Host.IsWritten`: the hosts that reading leaves.

## Main results

* `Host.isWritten_of_parse`: what is read is such a host.
* `Host.parse_render`: such a host is read back.
* `Host.mem_render`, `Host.hostLength_render_append`: what its text is made of, and where it ends.
-/

namespace RealmDirectory

/-- A digit has no case. -/
theorem toLower_of_isDigit {c : Char} (hc : c.isDigit = true) : c.toLower = c := by
  refine Char.toLower_eq_of_not_isUpper fun hupper => ?_
  simp only [Char.isDigit, Char.isUpper, Bool.and_eq_true, decide_eq_true_eq, ge_iff_le,
    UInt32.le_iff_toNat_le] at hc hupper
  exact absurd (Nat.le_trans hupper.1 hc.2) (by decide)

namespace Host

/-! ### Characters of hosts -/

/-- A character that may stand in a name. -/
def IsPlain (c : Char) : Prop := isForbidden c = false ∧ Percent.isControl c = false

/-- Hexadecimal digits may stand in a name. -/
theorem isPlain_of_isHex {c : Char} (hc : Percent.isHex c = true) : IsPlain c := by
  refine ⟨?_, Percent.isSet_isControl.hex c hc⟩
  cases hforbidden : isForbidden c with
  | false => rfl
  | true =>
      have hnone : ['\x00', '\t', '\n', '\r', ' ', '#', '/', ':', '<', '>', '?', '@', '[', '\\',
          ']', '^', '|'].all (fun d => !Percent.isHex d) = true := by decide
      have hmem := List.contains_iff_mem.mp hforbidden
      simpa [hc] using List.all_eq_true.mp hnone c hmem

theorem isHex_of_isDigit {c : Char} (hc : c.isDigit = true) : Percent.isHex c = true := by
  have hbounds : '0' ≤ c ∧ c ≤ '9' := by simpa [Char.isDigit, Char.le_def] using hc
  rw [Percent.isHex, Text.hexValue?, if_pos hbounds]
  rfl

theorem isPlain_of_mem_render4 {a : UInt32} {c : Char} (hc : c ∈ render4 a) : IsPlain c := by
  rcases mem_render4 hc with rfl | hdigit
  · exact ⟨by decide, by decide⟩
  · exact isPlain_of_isHex (isHex_of_isDigit hdigit)

theorem IsPlain.ne {c d : Char} (hc : IsPlain c) (hd : isForbidden d = true) : c ≠ d :=
  Percent.ne_of_eq_false hc.1 hd

/-! ### What reading leaves -/

/-- The hosts that reading leaves under a scheme; `known` tells whether browsers know it. -/
def IsWritten (known : Bool) : Host → Prop
  | empty => False
  | name text =>
      text.toList ≠ [] ∧ (∀ c ∈ text.toList, IsPlain c) ∧
        (known = true → (∀ c ∈ text.toList, c ≠ '%' ∧ c.toLower = c) ∧
          endsInNumber text.toList = false)
  | address4 _ => known = true
  | address6 _ => True

variable {known : Bool} {host : Host} {s : List Char}

/-- Only a text in brackets is read as an address of version 6. -/
theorem parse_of_notMem (h : '[' ∉ s) :
    parse known s =
      if known then parseDomain s
      else if s.any isForbidden then .error .badHostCharacter
      else if s.isEmpty then .ok empty
      else .ok (name (String.ofList (Percent.encode Percent.isControl s))) := by
  unfold parse
  split
  · exact absurd List.mem_cons_self h
  · rfl

/-- A name that stands as it was understood is understood as itself. -/
theorem undo_eq_self (hlower : ∀ c ∈ s, c ≠ '%' ∧ c.toLower = c) :
    (Text.ofUtf8Lossy (Percent.decode (Text.utf8Bytes s))).map Char.toLower = s := by
  have hdecode : Percent.decode (Text.utf8Bytes s) = Text.utf8Bytes s :=
    (Percent.decode_eq_self_iff s).mpr fun ⟨before, r, heq, _⟩ =>
      (hlower '%' (by rw [heq]; simp)).1 rfl
  rw [hdecode, Text.ofUtf8Lossy_utf8Bytes]
  exact (List.map_congr_left fun c hc => (hlower c hc).2).trans (List.map_id s)

/-- How a name is understood that stands as it was understood. -/
theorem parseDomain_eq (hne : s ≠ []) (hplain : ∀ c ∈ s, IsPlain c)
    (hlower : ∀ c ∈ s, c ≠ '%' ∧ c.toLower = c) :
    parseDomain s =
      if endsInNumber s then
        match address4? s with
        | some a => .ok (address4 a)
        | none => .error .badAddress4
      else .ok (name (String.ofList s)) := by
  have hclean : s.any (fun c => isForbidden c || Percent.isControl c || c == '%') = false := by
    rw [List.any_eq_false]
    intro c hc
    simp [(hplain c hc).1, (hplain c hc).2, (hlower c hc).1]
  have hfull : s.isEmpty = false := by simpa using hne
  rw [parseDomain, undo_eq_self hlower, hclean, hfull]
  rfl

/-- No bracket stands where all characters are plain. -/
theorem bracket_notMem (hplain : ∀ c ∈ s, IsPlain c) : '[' ∉ s := fun hmem =>
  (hplain _ hmem).ne rfl rfl

/-! ### Reading back -/

/-- **A host that reading leaves is read back.** -/
theorem parse_render (h : host.IsWritten known) : parse known host.render.toList = .ok host := by
  cases host with
  | empty => exact h.elim
  | name text =>
      obtain ⟨hne, hplain, hknown⟩ := h
      rw [render, parse_of_notMem (bracket_notMem hplain)]
      cases known with
      | true =>
          obtain ⟨hlower, hnumber⟩ := hknown rfl
          rw [if_pos rfl, parseDomain_eq hne hplain hlower, hnumber, String.ofList_toList]
          rfl
      | false =>
          have hallowed : text.toList.any isForbidden = false :=
            List.any_eq_false.mpr fun c hc => by rw [(hplain c hc).1]; decide
          have hfull : text.toList.isEmpty = false := by simpa using hne
          rw [hallowed, hfull, Percent.encode_eq_self fun c hc => (hplain c hc).2,
            String.ofList_toList]
          rfl
  | address4 a =>
      obtain rfl : known = true := h
      have hplain : ∀ c ∈ render4 a, IsPlain c := fun c => isPlain_of_mem_render4
      have hlower : ∀ c ∈ render4 a, c ≠ '%' ∧ c.toLower = c := by
        intro c hc
        rcases mem_render4 hc with rfl | hdigit
        · exact ⟨by decide, rfl⟩
        · exact ⟨fun heq => absurd (heq ▸ hdigit) (by decide), toLower_of_isDigit hdigit⟩
      rw [render, String.toList_ofList, parse_of_notMem (bracket_notMem hplain), if_pos rfl,
        parseDomain_eq (render4_ne_nil a) hplain hlower, endsInNumber_render4, if_pos rfl,
        address4?_render4]
  | address6 v =>
      rw [render, String.toList_ofList, parse]
      simp [address6?_render6]

/-- What is read under a scheme that browsers know. -/
theorem isWritten_of_parseDomain (h : parseDomain s = .ok host) : host.IsWritten true := by
  rw [parseDomain] at h
  generalize hundone :
    (Text.ofUtf8Lossy (Percent.decode (Text.utf8Bytes s))).map Char.toLower = plain at h
  split at h
  · cases h
  next hclean =>
  split at h
  · cases h
  next hfull =>
  split at h
  · split at h
    · obtain rfl := Except.ok.inj h
      rfl
    · cases h
  next hnumber =>
  obtain rfl := Except.ok.inj h
  have hchars : ∀ c ∈ plain, isForbidden c = false ∧ Percent.isControl c = false ∧ c ≠ '%' := by
    intro c hc
    have hfalse := List.any_eq_false.mp (Bool.eq_false_iff.mpr hclean) c hc
    simpa [Bool.or_eq_false_iff, and_assoc] using hfalse
  rw [IsWritten, String.toList_ofList]
  refine ⟨by simpa using hfull, fun c hc => ⟨(hchars c hc).1, (hchars c hc).2.1⟩,
    fun _ => ⟨fun c hc => ⟨(hchars c hc).2.2, ?_⟩, by simpa using hnumber⟩⟩
  rw [← hundone] at hc
  obtain ⟨d, -, rfl⟩ := List.mem_map.mp hc
  exact Char.toLower_toLower_eq_toLower d

/-- **What is read under a scheme is a host that reading leaves.** -/
theorem isWritten_of_parse (h : parse known s = .ok host) (hne : host ≠ .empty) :
    host.IsWritten known := by
  unfold parse at h
  split at h
  · split at h
    · cases h
    split at h
    · obtain rfl := Except.ok.inj h
      trivial
    · cases h
  · split at h
    · next hknown => exact hknown ▸ isWritten_of_parseDomain h
    · next hknown =>
        split at h
        · cases h
        next hallowed =>
        split at h
        · exact absurd (Except.ok.inj h).symm hne
        next hfull =>
        obtain rfl := Except.ok.inj h
        rw [List.any_eq_true] at hallowed
        rw [IsWritten, String.toList_ofList]
        refine ⟨Percent.encode_ne_nil (by simpa using hfull), fun c hc => ?_,
          fun heq => absurd heq hknown⟩
        rcases Percent.mem_encode hc with ⟨hmem, hset⟩ | rfl | hhex
        · exact ⟨by simpa using fun hc => hallowed ⟨c, hmem, hc⟩, hset⟩
        · exact ⟨by decide, by decide⟩
        · exact isPlain_of_isHex hhex

/-- **What stands in a host**: plain characters, and in an address of version 6 brackets and
colons. -/
theorem mem_render (h : host.IsWritten known) {c : Char} (hc : c ∈ host.render.toList) :
    IsPlain c ∨ c = ':' ∨ c = '[' ∨ c = ']' := by
  cases host with
  | empty => exact h.elim
  | name text => exact .inl (h.2.1 c hc)
  | address4 a =>
      rw [render, String.toList_ofList] at hc
      exact .inl (isPlain_of_mem_render4 hc)
  | address6 v =>
      rw [render, String.toList_ofList, List.mem_cons, List.mem_append, List.mem_singleton] at hc
      rcases hc with rfl | hc | rfl
      · exact .inr (.inr (.inl rfl))
      · rcases mem_render6 hc with rfl | hhex
        · exact .inr (.inl rfl)
        · exact .inl (isPlain_of_isHex hhex)
      · exact .inr (.inr (.inr rfl))

/-- A host has a text. -/
theorem render_ne_nil (h : host.IsWritten known) : host.render.toList ≠ [] := by
  cases host with
  | empty => exact h.elim
  | name text => exact h.1
  | address4 a =>
      rw [render, String.toList_ofList]
      exact render4_ne_nil a
  | address6 v =>
      rw [render, String.toList_ofList]
      exact List.cons_ne_nil _ _

/-- Outside brackets, plain characters are passed over. -/
theorem hostLength_append (hplain : ∀ c ∈ s, IsPlain c) (rest : List Char) :
    Url.hostLength false (s ++ rest) = s.length + Url.hostLength false rest := by
  induction s with
  | nil => simp
  | cons c r ih =>
      have hc := hplain c List.mem_cons_self
      have hr := ih fun d hd => hplain d (List.mem_cons_of_mem c hd)
      rw [List.cons_append, Url.hostLength, if_neg (by simpa using hc.ne rfl), if_neg (hc.ne rfl),
        if_neg (hc.ne rfl), hr, List.length_cons]
      omega

/-- Inside brackets, everything is passed over up to the closing one. -/
theorem hostLength_bracket (hopen : ']' ∉ s) (rest : List Char) :
    Url.hostLength true (s ++ ']' :: rest) = s.length + 1 + Url.hostLength false rest := by
  induction s with
  | nil =>
      rw [List.nil_append, Url.hostLength]
      simp
  | cons c r ih =>
      have hc : c ≠ ']' := fun h => hopen (h ▸ List.mem_cons_self)
      have hr := ih fun h => hopen (List.mem_cons_of_mem c h)
      have hstill : (if c = '[' then true else if c = ']' then false else true) = true := by
        simp [hc]
      rw [List.cons_append, Url.hostLength, if_neg (by simp), hstill, hr, List.length_cons]
      omega

/-- **The end of a host** is found behind it: at the end of the text, or at a colon. -/
theorem hostLength_render_append (h : host.IsWritten known) {rest : List Char}
    (hrest : Url.hostLength false rest = 0) :
    Url.hostLength false (host.render.toList ++ rest) = host.render.toList.length := by
  cases host with
  | empty => exact h.elim
  | name text => rw [render, hostLength_append h.2.1, hrest, Nat.add_zero]
  | address4 a =>
      rw [render, String.toList_ofList, hostLength_append fun c => isPlain_of_mem_render4, hrest,
        Nat.add_zero]
  | address6 v =>
      have hopen : ']' ∉ render6 v.toList := fun hmem =>
        (mem_render6 hmem).elim (by decide) (by decide)
      rw [render, String.toList_ofList, List.cons_append, List.append_assoc, List.singleton_append,
        Url.hostLength, if_neg (by decide), if_pos rfl, hostLength_bracket hopen, hrest]
      simp only [List.length_cons, List.length_append, List.length_nil]
      omega

end Host

end RealmDirectory
