import RealmDirectory.Text.Utf8

/-!
# The bytes of texts

A character of ASCII is one byte, which is its number, and no byte of another character is one of
ASCII. The first byte of a character tells how many follow, and the bits of all of them are its
number again. So a text is read back from its bytes, one character after the other.

## Main results

* `utf8EncodeChar_cases`: the bytes of a character.
* `readUtf8From_utf8EncodeChar`: a character is read back, whatever follows.
* `ofUtf8?_utf8Bytes`: every text is read back.
-/

namespace RealmDirectory.Text

variable {c : Char} {b : UInt8} {bits low high more : Nat}

/-! ### The bytes of a character -/

/-- A character of ASCII is one byte. -/
theorem utf8EncodeChar_of_lt (hc : c.toNat < 0x80) :
    String.utf8EncodeChar c = [c.toNat.toUInt8] := by
  have hsize : c.utf8Size = 1 := by
    rw [Char.utf8Size_eq_one_iff, UInt32.le_iff_toNat_le]
    exact Nat.le_of_lt_succ hc
  exact String.utf8EncodeChar_eq_singleton hsize

/-- The byte of a character of ASCII is its number. -/
theorem toNat_toUInt8_of_lt (hc : c.toNat < 0x80) : c.toNat.toUInt8.toNat = c.toNat :=
  Nat.mod_eq_of_lt (Nat.lt_trans hc (by decide))

/-- **The bytes of a character**: one byte in ASCII, and else bytes that all lie outside it. -/
theorem utf8EncodeChar_cases (c : Char) :
    (c.toNat < 0x80 ∧ String.utf8EncodeChar c = [c.toNat.toUInt8]) ∨
      ∀ b ∈ String.utf8EncodeChar c, 0x80 ≤ b.toNat := by
  have hv : c.val.toNat < 0x110000 := by
    rcases c.valid with h | h <;> omega
  by_cases hc : c.toNat < 0x80
  · exact .inl ⟨hc, utf8EncodeChar_of_lt hc⟩
  · right
    have hlarge : ¬ c.val.toNat ≤ 0x7F := fun h => hc (Nat.lt_succ_of_le h)
    simp only [String.utf8EncodeChar, if_neg hlarge]
    split
    · simp only [List.mem_cons, List.not_mem_nil, or_false]
      rintro b (rfl | rfl) <;> simp only [UInt8.toNat_ofNat'] <;> omega
    split
    · simp only [List.mem_cons, List.not_mem_nil, or_false]
      rintro b (rfl | rfl | rfl) <;> simp only [UInt8.toNat_ofNat'] <;> omega
    · simp only [List.mem_cons, List.not_mem_nil, or_false]
      rintro b (rfl | rfl | rfl | rfl) <;> simp only [UInt8.toNat_ofNat'] <;> omega

/-! ### Reading what was written -/

/-- The first byte of a letter of two bytes. -/
theorem firstByte_two {b : Nat} (hlow : 0xC2 ≤ b) (hhigh : b < 0xE0) :
    firstByte b = .opens ⟨b - 0xC0, 0x80, 0xBF, 0⟩ := by
  rw [firstByte, if_neg (by omega), if_neg (by omega), if_pos hhigh]

/-- The first byte of a letter of three bytes. -/
theorem firstByte_three {b : Nat} (hlow : 0xE0 ≤ b) (hhigh : b < 0xF0) :
    firstByte b =
      .opens ⟨b - 0xE0, if b = 0xE0 then 0xA0 else 0x80, if b = 0xED then 0x9F else 0xBF, 1⟩ := by
  rw [firstByte, if_neg (by omega), if_neg (by omega), if_neg (by omega), if_pos hhigh]

/-- The first byte of a letter of four bytes. -/
theorem firstByte_four {b : Nat} (hlow : 0xF0 ≤ b) (hhigh : b < 0xF5) :
    firstByte b =
      .opens ⟨b - 0xF0, if b = 0xF0 then 0x90 else 0x80, if b = 0xF4 then 0x8F else 0xBF, 2⟩ := by
  rw [firstByte, if_neg (by omega), if_neg (by omega), if_neg (by omega), if_neg (by omega),
    if_pos hhigh]

/-- A byte within the bounds goes on with the letter that is open. -/
theorem readUtf8From_more (h : low ≤ b.toNat ∧ b.toNat ≤ high) (r : List UInt8) :
    readUtf8From (some ⟨bits, low, high, more + 1⟩) (b :: r) =
      readUtf8From (some ⟨bits * 64 + b.toNat % 64, 0x80, 0xBF, more⟩) r := by
  rw [readUtf8From, if_pos h]

/-- The last byte of a letter ends it. -/
theorem readUtf8From_last (h : low ≤ b.toNat ∧ b.toNat ≤ high)
    (hc : bits * 64 + b.toNat % 64 = c.val.toNat) (r : List UInt8) :
    readUtf8From (some ⟨bits, low, high, 0⟩) (b :: r) = some c :: readUtf8From none r := by
  have hof : Char.ofNat c.val.toNat = c := Char.ofNat_toNat c
  rw [readUtf8From, if_pos h]
  simp only [hc, hof]

/-- **A character is read back** from its bytes, whatever follows. The cases are those of the
number of its bytes. -/
theorem readUtf8From_utf8EncodeChar (c : Char) (r : List UInt8) :
    readUtf8From none (String.utf8EncodeChar c ++ r) = some c :: readUtf8From none r := by
  have hvalid : c.val.toNat < 0xD800 ∨ 0xDFFF < c.val.toNat ∧ c.val.toNat < 0x110000 := c.valid
  have hof : Char.ofNat c.val.toNat = c := Char.ofNat_toNat c
  have hbyte {n : Nat} (hn : n < 256) : (UInt8.ofNat n).toNat = n := Nat.mod_eq_of_lt hn
  simp only [String.utf8EncodeChar]
  split
  case isTrue hone =>
    rw [List.singleton_append, readUtf8From, readUtf8From.start, hbyte (by omega), firstByte,
      if_pos (by omega), hof]
  case isFalse hone =>
  split
  case isTrue htwo =>
    simp only [List.cons_append, List.nil_append]
    rw [readUtf8From, readUtf8From.start, hbyte (by omega),
      firstByte_two (by omega) (by omega)]
    exact readUtf8From_last (by rw [hbyte (by omega)]; omega) (by rw [hbyte (by omega)]; omega) r
  case isFalse htwo =>
  split
  case isTrue hthree =>
    simp only [List.cons_append, List.nil_append]
    rw [readUtf8From, readUtf8From.start, hbyte (by omega),
      firstByte_three (by omega) (by omega)]
    refine (readUtf8From_more ?_ _).trans (readUtf8From_last ?_ ?_ r)
    · rw [hbyte (by omega)]; split <;> split <;> omega
    · rw [hbyte (by omega)]; omega
    · rw [hbyte (by omega), hbyte (by omega)]; omega
  case isFalse hthree =>
    simp only [List.cons_append, List.nil_append]
    rw [readUtf8From, readUtf8From.start, hbyte (by omega),
      firstByte_four (by omega) (by omega)]
    refine (readUtf8From_more ?_ _).trans ((readUtf8From_more ?_ _).trans
      (readUtf8From_last ?_ ?_ r))
    · rw [hbyte (by omega)]; split <;> split <;> omega
    · rw [hbyte (by omega)]; omega
    · rw [hbyte (by omega)]; omega
    · rw [hbyte (by omega), hbyte (by omega), hbyte (by omega)]; omega

/-- The letters of a text's bytes are the text. -/
theorem readUtf8_utf8Bytes (s : List Char) : readUtf8 (utf8Bytes s) = s.map some := by
  induction s with
  | nil => rw [utf8Bytes, List.flatMap_nil, readUtf8, readUtf8From, List.map_nil]
  | cons c r ih =>
      rw [utf8Bytes, List.flatMap_cons, readUtf8, readUtf8From_utf8EncodeChar, List.map_cons, ← ih]
      rfl

/-- **Every text is read back** from its bytes. -/
theorem ofUtf8?_utf8Bytes (s : List Char) : ofUtf8? (utf8Bytes s) = some s := by
  rw [ofUtf8?, readUtf8_utf8Bytes]
  induction s with
  | nil => rfl
  | cons c r ih => rw [List.map_cons, List.mapM_cons, ih]; rfl

/-- The replacement character does not come in. -/
theorem ofUtf8Lossy_utf8Bytes (s : List Char) : ofUtf8Lossy (utf8Bytes s) = s := by
  rw [ofUtf8Lossy, readUtf8_utf8Bytes, List.map_map]
  exact List.map_id s

end RealmDirectory.Text
