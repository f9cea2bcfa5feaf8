import RealmDirectory.Text.Base64
import RealmDirectory.Text.Utf8

/-!
# Base64, read back

Bytes that are written without padding are read back by the strict reader, in every alphabet
whose sixty-four letters are different, and the strict reader takes nothing else. A reader that
splits a stored text also has to know how long the letters of some bytes are, and which
characters they can be.

## Main results

* `Alphabet.decode?_encode`: written bytes are read back.
* `Alphabet.eq_encode_of_decode?`: what is read was written.
* `Alphabet.length_encode`, `Alphabet.decodedLength_length_encode`: how long the letters are.
* `Alphabet.mem_letters_of_mem_encode`: the letters are those of the alphabet.
-/

namespace RealmDirectory.Text

namespace Alphabet

/-- Each number below 64 has a letter of its own. -/
structure IsProper (a : Alphabet) : Prop where
  value?_letter : ∀ n < 64, a.value? (a.letter n) = some n
  letter_mem : ∀ n < 64, a.letter n ∈ a.letters

theorem isProper_standard : standard.IsProper := ⟨by decide, by decide⟩

theorem isProper_dotted : dotted.IsProper := ⟨by decide, by decide⟩

variable {a : Alphabet}

/-- A byte is put together from the bits that its letters hold. -/
theorem toUInt8_eq {x : UInt8} {n : Nat} (h : n = x.toNat) : n.toUInt8 = x := by
  rw [h]
  exact UInt8.ofNat_toNat

/-- **Written bytes are read back.** -/
theorem decode?_encode (h : a.IsProper) (bytes : List UInt8) :
    a.decode? (a.encode bytes) = some bytes := by
  induction bytes using encode.induct with
  | case1 => rfl
  | case2 x =>
      have hx := x.toNat_lt
      have hp := h.value?_letter (x.toNat / 4) (by omega)
      have hq := h.value?_letter (x.toNat % 4 * 16) (by omega)
      have hbits : x.toNat % 4 * 16 % 16 = 0 := by omega
      have hbyte : x.toNat / 4 * 4 + x.toNat % 4 * 16 / 16 = x.toNat := by omega
      simp only [encode, decode?, hp, hq, Option.bind_eq_bind, Option.bind_some, if_pos hbits,
        toUInt8_eq hbyte]
  | case3 x y =>
      have hx := x.toNat_lt
      have hy := y.toNat_lt
      have hp := h.value?_letter (x.toNat / 4) (by omega)
      have hq := h.value?_letter (x.toNat % 4 * 16 + y.toNat / 16) (by omega)
      have hr := h.value?_letter (y.toNat % 16 * 4) (by omega)
      have hbits : y.toNat % 16 * 4 % 4 = 0 := by omega
      have hfirst : x.toNat / 4 * 4 + (x.toNat % 4 * 16 + y.toNat / 16) / 16 = x.toNat := by
        omega
      have hsecond : (x.toNat % 4 * 16 + y.toNat / 16) % 16 * 16 + y.toNat % 16 * 4 / 4 =
          y.toNat := by omega
      simp only [encode, decode?, hp, hq, hr, Option.bind_eq_bind, Option.bind_some,
        if_pos hbits, toUInt8_eq hfirst, toUInt8_eq hsecond]
  | case4 x y z r ih =>
      have hx := x.toNat_lt
      have hy := y.toNat_lt
      have hz := z.toNat_lt
      have hp := h.value?_letter (x.toNat / 4) (by omega)
      have hq := h.value?_letter (x.toNat % 4 * 16 + y.toNat / 16) (by omega)
      have hr := h.value?_letter (y.toNat % 16 * 4 + z.toNat / 64) (by omega)
      have hs := h.value?_letter (z.toNat % 64) (by omega)
      have hfirst : x.toNat / 4 * 4 + (x.toNat % 4 * 16 + y.toNat / 16) / 16 = x.toNat := by
        omega
      have hsecond : (x.toNat % 4 * 16 + y.toNat / 16) % 16 * 16 +
          (y.toNat % 16 * 4 + z.toNat / 64) / 4 = y.toNat := by omega
      have hthird : (y.toNat % 16 * 4 + z.toNat / 64) % 4 * 64 + z.toNat % 64 = z.toNat := by
        omega
      simp only [encode, decode?, hp, hq, hr, hs, ih, Option.bind_eq_bind, Option.bind_some,
        toUInt8_eq hfirst, toUInt8_eq hsecond, toUInt8_eq hthird]

/-- The number of a letter is its place in the alphabet. -/
theorem letter_of_value? {c : Char} {n : Nat} (h : a.value? c = some n) :
    n < a.letters.length ∧ a.letter n = c := by
  obtain ⟨hn, hc, -⟩ := List.findIdx?_eq_some_iff_getElem.mp h
  have hget : a.letters[n]? = some c := by
    rw [List.getElem?_eq_getElem hn, beq_iff_eq.mp hc]
  exact ⟨hn, by rw [letter, List.getD_eq_getElem?_getD, hget, Option.getD_some]⟩

/-- A number below 256 is the number of its byte. -/
theorem toNat_toUInt8 {n : Nat} (h : n < 256) : n.toUInt8.toNat = n :=
  UInt8.toNat_ofNat_of_lt h

/-- **Letters that can be read were written for their bytes**: neither the letters nor the bits
behind the last byte leave a choice. -/
theorem eq_encode_of_decode? (hlength : a.letters.length = 64) {s : List Char}
    {bytes : List UInt8} (h : a.decode? s = some bytes) : s = a.encode bytes := by
  induction s using decode?.induct generalizing bytes with
  | case1 =>
      obtain rfl := Option.some.inj h
      rfl
  | case2 c => cases h
  | case3 p q =>
      simp only [decode?, Option.bind_eq_bind, Option.bind_eq_some_iff] at h
      obtain ⟨m, hm, n, hn, h⟩ := h
      obtain ⟨hmlt, rfl⟩ := letter_of_value? hm
      obtain ⟨hnlt, rfl⟩ := letter_of_value? hn
      split at h
      · next hbits =>
          obtain rfl := Option.some.inj h
          have hx := toNat_toUInt8 (n := m * 4 + n / 16) (by omega)
          rw [encode, hx]
          congr 3 <;> omega
      · cases h
  | case4 p q r =>
      simp only [decode?, Option.bind_eq_bind, Option.bind_eq_some_iff] at h
      obtain ⟨m, hm, n, hn, k, hk, h⟩ := h
      obtain ⟨hmlt, rfl⟩ := letter_of_value? hm
      obtain ⟨hnlt, rfl⟩ := letter_of_value? hn
      obtain ⟨hklt, rfl⟩ := letter_of_value? hk
      split at h
      · next hbits =>
          obtain rfl := Option.some.inj h
          have hx := toNat_toUInt8 (n := m * 4 + n / 16) (by omega)
          have hy := toNat_toUInt8 (n := n % 16 * 16 + k / 4) (by omega)
          rw [encode, hx, hy]
          congr 4 <;> omega
      · cases h
  | case5 p q r s rest ih =>
      simp only [decode?, Option.bind_eq_bind, Option.bind_eq_some_iff] at h
      obtain ⟨m, hm, n, hn, k, hk, l, hl, tail, htail, h⟩ := h
      obtain ⟨hmlt, rfl⟩ := letter_of_value? hm
      obtain ⟨hnlt, rfl⟩ := letter_of_value? hn
      obtain ⟨hklt, rfl⟩ := letter_of_value? hk
      obtain ⟨hllt, rfl⟩ := letter_of_value? hl
      obtain rfl := Option.some.inj h
      have hx := toNat_toUInt8 (n := m * 4 + n / 16) (by omega)
      have hy := toNat_toUInt8 (n := n % 16 * 16 + k / 4) (by omega)
      have hz := toNat_toUInt8 (n := k % 4 * 64 + l) (by omega)
      rw [encode, hx, hy, hz, ih htail]
      congr 5 <;> omega

/-- Four letters stand for three bytes, and a group that is not full takes one letter more
than it has bytes. -/
theorem length_encode (a : Alphabet) (bytes : List UInt8) :
    (a.encode bytes).length = (bytes.length * 4 + 2) / 3 := by
  induction bytes using encode.induct with
  | case1 => rfl
  | case2 x => simp only [encode, List.length_cons, List.length_nil]
  | case3 x y => simp only [encode, List.length_cons, List.length_nil]
  | case4 x y z r ih =>
      simp only [encode, List.length_cons, ih]
      omega

/-- The letters of some bytes stand for as many bytes as were written. -/
theorem decodedLength_length_encode (a : Alphabet) (bytes : List UInt8) :
    decodedLength (a.encode bytes).length = bytes.length := by
  rw [length_encode, decodedLength]
  omega

/-- **Written bytes consist of letters of the alphabet.** -/
theorem mem_letters_of_mem_encode (h : a.IsProper) {bytes : List UInt8} {c : Char}
    (hc : c ∈ a.encode bytes) : c ∈ a.letters := by
  have hletter {n : Nat} (hn : n < 64) (hcn : c = a.letter n) : c ∈ a.letters :=
    hcn ▸ h.letter_mem n hn
  induction bytes using encode.induct with
  | case1 => exact absurd hc List.not_mem_nil
  | case2 x =>
      have hx := x.toNat_lt
      simp only [encode, List.mem_cons, List.not_mem_nil, or_false] at hc
      rcases hc with hc | hc
      · exact hletter (by omega) hc
      · exact hletter (by omega) hc
  | case3 x y =>
      have hx := x.toNat_lt
      have hy := y.toNat_lt
      simp only [encode, List.mem_cons, List.not_mem_nil, or_false] at hc
      rcases hc with hc | hc | hc
      · exact hletter (by omega) hc
      · exact hletter (by omega) hc
      · exact hletter (by omega) hc
  | case4 x y z r ih =>
      have hx := x.toNat_lt
      have hy := y.toNat_lt
      have hz := z.toNat_lt
      simp only [encode, List.mem_cons] at hc
      rcases hc with hc | hc | hc | hc | hc
      · exact hletter (by omega) hc
      · exact hletter (by omega) hc
      · exact hletter (by omega) hc
      · exact hletter (by omega) hc
      · exact ih hc

/-- A character outside the alphabet does not stand in written bytes. -/
theorem notMem_encode (h : a.IsProper) {c : Char} (hc : c ∉ a.letters) (bytes : List UInt8) :
    c ∉ a.encode bytes :=
  fun hmem => hc (mem_letters_of_mem_encode h hmem)

/-- A property of the letters of the alphabet holds of the letters of bytes. -/
theorem forall_mem_encode (h : a.IsProper) {p : Char → Prop} (hp : ∀ c ∈ a.letters, p c)
    (bytes : List UInt8) : ∀ c ∈ a.encode bytes, p c :=
  fun c hc => hp c (mem_letters_of_mem_encode h hc)

/-- The letters of some bytes take one byte each when the letters of the alphabet do. -/
theorem utf8Size_of_mem_encode (h : a.IsProper)
    (hsize : a.letters.all (fun c => c.utf8Size == 1) = true) (bytes : List UInt8) :
    ∀ c ∈ a.encode bytes, c.utf8Size = 1 :=
  forall_mem_encode h (fun c hc => eq_of_beq (List.all_eq_true.mp hsize c hc)) bytes

end Alphabet

/-- A text of letters of one byte each takes as many bytes as it has letters. -/
theorem length_utf8Bytes {s : List Char} (h : ∀ c ∈ s, c.utf8Size = 1) :
    (utf8Bytes s).length = s.length := by
  induction s with
  | nil => rfl
  | cons c r ih =>
      have hc : (String.utf8EncodeChar c).length = 1 := by
        rw [String.length_utf8EncodeChar, h c List.mem_cons_self]
      have hr := ih fun d hd => h d (List.mem_cons_of_mem c hd)
      simp only [utf8Bytes] at hr
      rw [utf8Bytes, List.flatMap_cons, List.length_append, hc, hr, List.length_cons]
      exact Nat.add_comm 1 r.length

end RealmDirectory.Text
