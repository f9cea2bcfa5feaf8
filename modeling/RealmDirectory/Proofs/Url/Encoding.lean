import RealmDirectory.Proofs.Text.Utf8
import RealmDirectory.Url.Percent

/-!
# Percent-encoding, twice and undone

Encodings are written with a percent sign and hexadecimal digits, and none of these belongs to a
set of characters that a part of a URL has. So encoding a text once is enough: what comes out
holds no character of the set, and comes back when it is encoded again.

What an encoding stands for comes back when it is undone, but so does what a percent sign with two
digits behind it stands for, which stood in the text before. Encoding and decoding together are the
same as decoding alone, and they give the text back exactly when it holds no such escape.

## Main definitions

* `IsSet`: the sets of characters that the parts of a URL have.
* `BeginsWithPair`, `HasEscape`: two hexadecimal digits, and a percent sign in front of them.

## Main results

* `eq_false_of_mem_encode`, `encode_eq_self`: what encoding leaves, and what it leaves alone.
* `decode_encode`: encoding does not change what a text stands for.
* `decode_eq_self_iff`: which texts stand for themselves.
-/

namespace RealmDirectory.Percent

/-! ### Sets of characters -/

/-- Whether a character is a hexadecimal digit, in either case. -/
def isHex (c : Char) : Bool := (Text.hexValue? c).isSome

/-- A set of characters that a part of a URL may have: control characters and everything outside
ASCII belong to it, and nothing that encodings are written with. -/
structure IsSet (set : Char → Bool) : Prop where
  control : ∀ c, isControl c = true → set c = true
  percent : set '%' = false
  hex : ∀ c, isHex c = true → set c = false

/-- Hexadecimal digits are letters and digits of ASCII. -/
theorem toNat_of_isHex {c : Char} (h : isHex c = true) : 0x30 ≤ c.toNat ∧ c.toNat ≤ 0x66 := by
  simp only [isHex, Text.hexValue?, Char.le_def, UInt32.le_iff_toNat_le] at h
  change 0x30 ≤ c.val.toNat ∧ c.val.toNat ≤ 0x66
  split at h
  · next hc => exact ⟨hc.1, Nat.le_trans hc.2 (by decide)⟩
  split at h
  · next hc => exact ⟨Nat.le_trans (by decide) hc.1, hc.2⟩
  split at h
  · next hc => exact ⟨Nat.le_trans (by decide) hc.1, Nat.le_trans hc.2 (by decide)⟩
  · cases h

theorem isSet_isControl : IsSet isControl where
  control _ h := h
  percent := rfl
  hex c h := by
    have hc := toNat_of_isHex h
    simp only [isControl, Bool.or_eq_false_iff, decide_eq_false_iff_not]
    omega

/-- A character that is neither a control character nor a blank is visible. -/
theorem visible_of_isControl {c : Char} (hcontrol : isControl c = false) (hblank : c ≠ ' ') :
    0x20 < c.toNat := by
  have hne : c.toNat ≠ 0x20 := fun heq => hblank (Char.toNat_inj.mp heq)
  simp only [isControl, Bool.or_eq_false_iff, decide_eq_false_iff_not] at hcontrol
  omega

variable {set : Char → Bool}

/-- A character that a set does not hold is none of those in it. -/
theorem ne_of_eq_false {c d : Char} (hc : set c = false) (hd : set d = true) : c ≠ d := by
  rintro rfl
  cases hc.symm.trans hd

/-- A character that a set does not hold is visible, when the set has the blank. -/
theorem IsSet.visible (h : IsSet set) (hblank : set ' ' = true) {c : Char} (hc : set c = false) :
    0x20 < c.toNat :=
  visible_of_isControl (Bool.eq_false_iff.mpr fun hcontrol =>
    ne_of_eq_false hc (h.control c hcontrol) rfl) (ne_of_eq_false hc hblank)

/-- More characters can be added to a set. -/
theorem IsSet.or (h : IsSet set) {l : List Char}
    (hl : l.all (fun c => c != '%' && !isHex c) = true) :
    IsSet fun c => set c || l.contains c where
  control c hc := by rw [h.control c hc, Bool.true_or]
  percent := by
    rw [h.percent, Bool.false_or]
    simpa using fun hmem => Bool.false_ne_true (List.all_eq_true.mp hl '%' hmem)
  hex c hc := by
    rw [h.hex c hc, Bool.false_or]
    simpa using fun hmem => by simpa [hc] using List.all_eq_true.mp hl c hmem

theorem isSet_inQuery : IsSet inQuery := isSet_isControl.or (by decide)

theorem isSet_inFragment : IsSet inFragment := isSet_isControl.or (by decide)

theorem isSet_inPath : IsSet inPath := isSet_inFragment.or (by decide)

theorem isSet_inUserinfo : IsSet inUserinfo := isSet_inPath.or (by decide)

/-! ### Encoding -/

/-- The digit of a number in an encoding. -/
def upperDigit (n : Nat) : Char := (Text.hexDigit n).toUpper

theorem encodeByte_eq (b : UInt8) :
    encodeByte b = ['%', upperDigit (b.toNat / 16), upperDigit (b.toNat % 16)] := rfl

theorem hexValue?_upperDigit : ∀ n < 16, Text.hexValue? (upperDigit n) = some n := by decide

/-- The value of each digit of a byte's encoding. -/
theorem hexValue?_encodeByte (b : UInt8) :
    Text.hexValue? (upperDigit (b.toNat / 16)) = some (b.toNat / 16) ∧
      Text.hexValue? (upperDigit (b.toNat % 16)) = some (b.toNat % 16) := by
  have hb : b.toNat < 256 := b.toNat_lt
  exact ⟨hexValue?_upperDigit _ (by omega), hexValue?_upperDigit _ (by omega)⟩

variable {s r : List Char} {c : Char}

theorem encode_cons_of_mem (hc : set c = true) :
    encode set (c :: r) = (String.utf8EncodeChar c).flatMap encodeByte ++ encode set r := by
  rw [encode, List.flatMap_cons, if_pos hc]
  rfl

theorem encode_cons_of_notMem (hc : set c = false) :
    encode set (c :: r) = c :: encode set r := by
  rw [encode, List.flatMap_cons, if_neg (by rw [hc]; decide)]
  rfl

/-- Every character is written in some way. -/
theorem encode_ne_nil (hs : s ≠ []) : encode set s ≠ [] := by
  obtain ⟨c, r, rfl⟩ := List.exists_cons_of_ne_nil hs
  cases hc : set c with
  | true =>
      obtain ⟨b, bytes, hbytes⟩ : ∃ b bytes, String.utf8EncodeChar c = b :: bytes :=
        List.exists_cons_of_ne_nil String.utf8EncodeChar_ne_nil
      rw [encode_cons_of_mem hc, hbytes, List.flatMap_cons, encodeByte_eq]
      exact List.cons_ne_nil _ _
  | false =>
      rw [encode_cons_of_notMem hc]
      exact List.cons_ne_nil _ _

/-- What an encoded text begins with stood there, unless it is a percent sign. -/
theorem exists_eq_cons_of_encode {u : List Char} (h : encode set s = c :: u) (hc : c ≠ '%') :
    ∃ r, s = c :: r ∧ u = encode set r := by
  cases s with
  | nil => cases h
  | cons d r =>
      cases hd : set d with
      | true =>
          obtain ⟨b, bytes, hbytes⟩ : ∃ b bytes, String.utf8EncodeChar d = b :: bytes :=
            List.exists_cons_of_ne_nil String.utf8EncodeChar_ne_nil
          rw [encode_cons_of_mem hd, hbytes, List.flatMap_cons, encodeByte_eq] at h
          exact absurd (List.cons.inj h).1.symm hc
      | false =>
          rw [encode_cons_of_notMem hd] at h
          obtain ⟨rfl, rfl⟩ := List.cons.inj h
          exact ⟨r, rfl, rfl⟩

/-- What stands in an encoded text: characters that need no encoding, and what encodings are
written with. -/
theorem mem_encode (hc : c ∈ encode set s) :
    (c ∈ s ∧ set c = false) ∨ c = '%' ∨ isHex c = true := by
  obtain ⟨d, hd, hc⟩ := List.mem_flatMap.mp hc
  cases hset : set d with
  | false =>
      rw [hset, if_neg Bool.false_ne_true] at hc
      obtain rfl := List.mem_singleton.mp hc
      exact .inl ⟨hd, hset⟩
  | true =>
      rw [hset, if_pos rfl] at hc
      obtain ⟨b, -, hc⟩ := List.mem_flatMap.mp hc
      obtain ⟨hhigh, hlow⟩ := hexValue?_encodeByte b
      simp only [encodeByte_eq, List.mem_cons, List.not_mem_nil, or_false] at hc
      rcases hc with rfl | rfl | rfl
      · exact .inr (.inl rfl)
      · exact .inr (.inr (by rw [isHex, hhigh]; rfl))
      · exact .inr (.inr (by rw [isHex, hlow]; rfl))

/-- An encoded text holds no character of the set. -/
theorem eq_false_of_mem_encode (h : IsSet set) (hc : c ∈ encode set s) : set c = false := by
  rcases mem_encode hc with ⟨-, hset⟩ | rfl | hhex
  · exact hset
  · exact h.percent
  · exact h.hex c hhex

/-- A text without a character of the set needs no encoding. -/
theorem encode_eq_self (h : ∀ c ∈ s, set c = false) : encode set s = s := by
  induction s with
  | nil => rfl
  | cons c r ih =>
      rw [encode_cons_of_notMem (h c List.mem_cons_self),
        ih fun d hd => h d (List.mem_cons_of_mem c hd)]

/-! ### Decoding -/

/-- Whether a text begins with two hexadecimal digits. -/
def BeginsWithPair (s : List Char) : Prop :=
  ∃ h l r, s = h :: l :: r ∧ isHex h = true ∧ isHex l = true

/-- Whether a percent sign with two hexadecimal digits behind it stands in a text. -/
def HasEscape (s : List Char) : Prop := ∃ before r, s = before ++ '%' :: r ∧ BeginsWithPair r

/-- A text is taken apart into escapes and other characters. -/
theorem escape_induction {P : List Char → Prop} (nil : P [])
    (escape : ∀ h l r, isHex h = true → isHex l = true → P r → P ('%' :: h :: l :: r))
    (plain : ∀ c r, (c = '%' → ¬ BeginsWithPair r) → P r → P (c :: r)) (s : List Char) : P s := by
  induction hn : s.length using Nat.strongRecOn generalizing s with
  | _ n ih =>
      cases s with
      | nil => exact nil
      | cons c r =>
          by_cases hescape : c = '%' ∧ BeginsWithPair r
          · obtain ⟨rfl, h, l, r, rfl, hh, hl⟩ := hescape
            exact escape h l r hh hl (ih r.length (by rw [← hn]; simp; omega) r rfl)
          · exact plain c r (not_and.mp hescape) (ih r.length (by rw [← hn]; simp) r rfl)

/-- A byte outside ASCII is no digit. -/
theorem lt_of_digit? {b : UInt8} (h : (decode.digit? b).isSome) : b.toNat < 0x80 := by
  rw [decode.digit?] at h
  split at h
  · next hb => exact UInt8.lt_iff_toNat_lt.mp hb
  · cases h

/-- A digit is its own byte, and has its value there. -/
theorem digit?_toUInt8 (hc : c.toNat < 0x80) :
    decode.digit? c.toNat.toUInt8 = Text.hexValue? c := by
  have hbyte := Text.toNat_toUInt8_of_lt hc
  rw [decode.digit?, if_pos (UInt8.lt_iff_toNat_lt.mpr (by rw [hbyte]; exact hc)), hbyte,
    Char.ofNat_toNat]

theorem utf8EncodeChar_of_isHex (hc : isHex c = true) :
    String.utf8EncodeChar c = [c.toNat.toUInt8] ∧
      decode.digit? c.toNat.toUInt8 = Text.hexValue? c := by
  have hlt : c.toNat < 0x80 := Nat.lt_of_le_of_lt (toNat_of_isHex hc).2 (by decide)
  exact ⟨Text.utf8EncodeChar_of_lt hlt, digit?_toUInt8 hlt⟩

/-- A digit among the bytes of a text is a digit in the text. -/
theorem exists_isHex_of_digit? {b : UInt8} {t : List UInt8} (h : Text.utf8Bytes s = b :: t)
    (hb : (decode.digit? b).isSome) :
    ∃ c r, s = c :: r ∧ isHex c = true ∧ t = Text.utf8Bytes r := by
  cases s with
  | nil => cases h
  | cons c r =>
      rw [Text.utf8Bytes, List.flatMap_cons] at h
      rcases Text.utf8EncodeChar_cases c with ⟨hc, heq⟩ | hhigh
      · rw [heq] at h
        obtain ⟨rfl, rfl⟩ := List.cons.inj h
        rw [digit?_toUInt8 hc] at hb
        exact ⟨c, r, rfl, hb, rfl⟩
      · obtain ⟨first, others, hbytes⟩ :
            ∃ first others, String.utf8EncodeChar c = first :: others :=
          List.exists_cons_of_ne_nil String.utf8EncodeChar_ne_nil
        rw [hbytes] at h hhigh
        obtain ⟨rfl, -⟩ := List.cons.inj h
        exact absurd (hhigh first List.mem_cons_self) (Nat.not_le.mpr (lt_of_digit? hb))

/-- A byte that is no percent sign stands for itself. -/
theorem decode_cons_of_ne {b : UInt8} (hb : b ≠ 0x25) (t : List UInt8) :
    decode (b :: t) = b :: decode t := by
  match t with
  | [] => rfl
  | [c] => rfl
  | h :: l :: t => rw [decode, beq_eq_false_iff_ne.mpr hb]

theorem decode_append {x : List UInt8} (hx : ∀ b ∈ x, b ≠ 0x25) (y : List UInt8) :
    decode (x ++ y) = x ++ decode y := by
  induction x with
  | nil => rfl
  | cons b x ih =>
      rw [List.cons_append, decode_cons_of_ne (hx b List.mem_cons_self),
        ih fun c hc => hx c (List.mem_cons_of_mem b hc), List.cons_append]

/-- The bytes of another character are no percent sign. -/
theorem ne_of_mem_utf8EncodeChar (hc : c ≠ '%') {b : UInt8}
    (hb : b ∈ String.utf8EncodeChar c) : b ≠ 0x25 := by
  rintro rfl
  rcases Text.utf8EncodeChar_cases c with ⟨hlt, heq⟩ | hhigh
  · rw [heq, List.mem_singleton] at hb
    exact hc (Char.toNat_inj.mp (by rw [← Text.toNat_toUInt8_of_lt hlt, ← hb]; rfl))
  · exact absurd (hhigh _ hb) (by decide)

/-- A percent sign without two digits behind it stands for itself. -/
theorem decode_percent (h : ¬ BeginsWithPair r) :
    decode (0x25 :: Text.utf8Bytes r) = 0x25 :: decode (Text.utf8Bytes r) := by
  match hbytes : Text.utf8Bytes r with
  | [] => rfl
  | [b] => rfl
  | high :: low :: t =>
      rw [decode]
      cases hhigh : decode.digit? high with
      | none => rfl
      | some hi =>
          cases hlow : decode.digit? low with
          | none => rfl
          | some lo =>
              obtain ⟨c, r', rfl, hc, hrest⟩ :=
                exists_isHex_of_digit? hbytes (by rw [hhigh]; rfl)
              obtain ⟨d, r'', rfl, hd, -⟩ :=
                exists_isHex_of_digit? hrest.symm (by rw [hlow]; rfl)
              exact absurd ⟨c, d, r'', rfl, hc, hd⟩ h

/-- **A character that begins no escape** stands for its bytes. -/
theorem decode_plain (h : c = '%' → ¬ BeginsWithPair r) :
    decode (Text.utf8Bytes (c :: r)) = String.utf8EncodeChar c ++ decode (Text.utf8Bytes r) := by
  rw [Text.utf8Bytes, List.flatMap_cons]
  by_cases hc : c = '%'
  · rw [hc]
    exact decode_percent (h hc)
  · exact decode_append (fun b hb => ne_of_mem_utf8EncodeChar hc hb) _

/-- **An escape** stands for the byte of its two digits. -/
theorem decode_escape {h l : Char} {hi lo : Nat} (hh : Text.hexValue? h = some hi)
    (hl : Text.hexValue? l = some lo) (r : List Char) :
    decode (Text.utf8Bytes ('%' :: h :: l :: r)) =
      (16 * hi + lo).toUInt8 :: decode (Text.utf8Bytes r) := by
  obtain ⟨hbyte, hhigh⟩ := utf8EncodeChar_of_isHex (c := h) (by rw [isHex, hh]; rfl)
  obtain ⟨lbyte, hlow⟩ := utf8EncodeChar_of_isHex (c := l) (by rw [isHex, hl]; rfl)
  have hbytes : Text.utf8Bytes ('%' :: h :: l :: r) =
      0x25 :: h.toNat.toUInt8 :: l.toNat.toUInt8 :: Text.utf8Bytes r := by
    simp only [Text.utf8Bytes, List.flatMap_cons, hbyte, lbyte]
    rfl
  rw [hbytes, decode, hhigh, hlow, hh, hl]
  rfl

/-- What the encoding of bytes stands for. -/
theorem decode_encodeBytes (bytes : List UInt8) (r : List Char) :
    decode (Text.utf8Bytes (bytes.flatMap encodeByte ++ r)) =
      bytes ++ decode (Text.utf8Bytes r) := by
  induction bytes with
  | nil => rfl
  | cons b bytes ih =>
      obtain ⟨hhigh, hlow⟩ := hexValue?_encodeByte b
      have hbyte : (16 * (b.toNat / 16) + b.toNat % 16).toUInt8 = b := by
        rw [Nat.div_add_mod]
        exact UInt8.ofNat_toNat
      rw [List.flatMap_cons, encodeByte_eq]
      simp only [List.cons_append, List.nil_append]
      rw [decode_escape hhigh hlow, hbyte, ih]

/-- Encoding makes no two digits at the start of a text. -/
theorem beginsWithPair_of_encode (h : BeginsWithPair (encode set s)) : BeginsWithPair s := by
  have hne : ∀ {c : Char}, isHex c = true → c ≠ '%' := fun hc heq => absurd (heq ▸ hc) (by decide)
  obtain ⟨c, d, t, heq, hc, hd⟩ := h
  obtain ⟨r, rfl, hr⟩ := exists_eq_cons_of_encode heq (hne hc)
  obtain ⟨r', rfl, -⟩ := exists_eq_cons_of_encode hr.symm (hne hd)
  exact ⟨c, d, r', rfl, hc, hd⟩

/-- **Encoding does not change what a text stands for.** The induction takes the text apart into
escapes, which are kept, and other characters. -/
theorem decode_encode (h : IsSet set) (s : List Char) :
    decode (Text.utf8Bytes (encode set s)) = decode (Text.utf8Bytes s) := by
  induction s using escape_induction with
  | nil => rfl
  | escape high low r hhigh hlow ih =>
      obtain ⟨hi, hhi⟩ := Option.isSome_iff_exists.mp hhigh
      obtain ⟨lo, hlo⟩ := Option.isSome_iff_exists.mp hlow
      rw [encode_cons_of_notMem h.percent, encode_cons_of_notMem (h.hex high hhigh),
        encode_cons_of_notMem (h.hex low hlow), decode_escape hhi hlo, decode_escape hhi hlo, ih]
  | plain c r hplain ih =>
      rw [decode_plain hplain, ← ih]
      cases hc : set c with
      | true => rw [encode_cons_of_mem hc, decode_encodeBytes]
      | false =>
          rw [encode_cons_of_notMem hc,
            decode_plain fun heq hpair => hplain heq (beginsWithPair_of_encode hpair)]

/-- Decoding makes no text longer. -/
theorem length_decode_le (bytes : List UInt8) : (decode bytes).length ≤ bytes.length := by
  fun_induction decode bytes with
  | case1 => exact Nat.le_refl _
  | case2 => exact Nat.le_refl _
  | case3 => exact Nat.le_refl _
  | case4 => simp only [List.length_cons]; omega
  | case5 => simp only [List.length_cons] at *; omega

/-- **A text stands for itself when it holds no escape**, and only then: an escape is three bytes,
and stands for one. -/
theorem decode_eq_self_iff (s : List Char) :
    decode (Text.utf8Bytes s) = Text.utf8Bytes s ↔ ¬ HasEscape s := by
  induction s using escape_induction with
  | nil =>
      refine iff_of_true rfl ?_
      rintro ⟨before, r, heq, -⟩
      exact absurd heq (by simp)
  | escape high low r hhigh hlow ih =>
      refine iff_of_false (fun heq => ?_) fun hnone => hnone ⟨[], _, rfl, _, _, _, rfl, hhigh, hlow⟩
      obtain ⟨hi, hhi⟩ := Option.isSome_iff_exists.mp hhigh
      obtain ⟨lo, hlo⟩ := Option.isSome_iff_exists.mp hlow
      have hlength := congrArg List.length heq
      have hle := length_decode_le (Text.utf8Bytes r)
      rw [decode_escape hhi hlo] at hlength
      simp only [Text.utf8Bytes, List.flatMap_cons, (utf8EncodeChar_of_isHex hhigh).1,
        (utf8EncodeChar_of_isHex hlow).1, List.length_append, List.length_cons, List.length_nil]
        at hlength hle
      omega
  | plain c r hplain ih =>
      have hsplit : Text.utf8Bytes (c :: r) = String.utf8EncodeChar c ++ Text.utf8Bytes r := rfl
      rw [decode_plain hplain, hsplit, List.append_cancel_left_eq, ih]
      refine not_congr ⟨?_, ?_⟩
      · rintro ⟨before, r', rfl, hr'⟩
        exact ⟨c :: before, r', rfl, hr'⟩
      · rintro ⟨before, r', heq, hr'⟩
        cases before with
        | nil =>
            obtain ⟨rfl, rfl⟩ := List.cons.inj heq
            exact absurd hr' (hplain rfl)
        | cons d before => exact ⟨before, r', (List.cons.inj heq).2, hr'⟩

end RealmDirectory.Percent
