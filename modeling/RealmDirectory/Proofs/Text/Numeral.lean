import Mathlib.Data.List.Induction
import RealmDirectory.Proofs.Text.Decimal

/-!
# Numerals

A field is read as a number in more than one spelling: a plus sign may stand in front of it, and
zeros may stand in front of its digits. These are all the spellings there are. A text of digits
is some zeros and the decimal of its value, by induction from its last digit, because a decimal
without its last digit is the decimal of its tenth.

## Main definitions

* `IsNumeral`: the spellings of a number.

## Main results

* `exists_zeros_of_isDigit`: digits are zeros with a decimal behind them.
* `readBounded_eq_some_iff`: the numerals up to a bound are what is read as a field.
-/

namespace RealmDirectory.Text

/-! ### Digits -/

/-- Only digits have a value. -/
theorem isDigit_of_digitValue? {c : Char} {d : Nat} (h : digitValue? c = some d) :
    c.isDigit = true := by
  rw [digitValue?] at h
  split at h
  · next hc => simpa [Char.isDigit, Char.le_def] using hc
  · cases h

/-- A digit is the one for its value. -/
theorem digitChar_toNat {c : Char} (h : c.isDigit = true) :
    c.toNat - '0'.toNat < 10 ∧ (c.toNat - '0'.toNat).digitChar = c := by
  have hdigit : ∀ d < 10, Char.ofNat (d + '0'.toNat) = d.digitChar := by decide
  have hrange : '0'.toNat ≤ c.toNat ∧ c.toNat ≤ '9'.toNat := by
    simpa [Char.isDigit, UInt32.le_iff_toNat_le] using h
  have hlt : c.toNat - '0'.toNat < 10 := by
    have hnine : '9'.toNat = '0'.toNat + 9 := rfl
    omega
  refine ⟨hlt, ?_⟩
  rw [← hdigit _ hlt, Nat.sub_add_cancel hrange.1, Char.ofNat_toNat]

/-- **What is read onto a number**: digits, whose value respects the bound. -/
theorem readDigits_eq_some_iff {bound acc n : Nat} {s : List Char} (hacc : acc ≤ bound) :
    readDigits bound acc s = some n ↔
      (∀ c ∈ s, c.isDigit = true) ∧ Nat.ofDigitChars 10 s acc = n ∧ n ≤ bound := by
  constructor
  · intro h
    induction s generalizing acc with
    | nil =>
        obtain rfl := Option.some.inj h
        exact ⟨fun c hc => absurd hc List.not_mem_nil, rfl, hacc⟩
    | cons c r ih =>
        cases hvalue : digitValue? c with
        | none => simp [readDigits, hvalue] at h
        | some d =>
            have hdigit := isDigit_of_digitValue? hvalue
            simp only [readDigits, hvalue, Option.bind_eq_bind, Option.bind_some] at h
            split at h
            · next hnext =>
                obtain ⟨hr, heq, hn⟩ := ih hnext h
                refine ⟨List.forall_mem_cons.mpr ⟨hdigit, hr⟩, ?_, hn⟩
                rw [digitValue?_of_isDigit hdigit, Option.some_inj] at hvalue
                rw [Nat.ofDigitChars_cons, Nat.mul_comm, hvalue, heq]
            · cases h
  · rintro ⟨hs, rfl, hn⟩
    exact readDigits_eq hs acc hn

/-! ### Zeros in front of a decimal -/

/-- Zeros add nothing. -/
theorem ofDigitChars_replicate_append (zeros : Nat) (s : List Char) :
    Nat.ofDigitChars 10 (List.replicate zeros '0' ++ s) 0 = Nat.ofDigitChars 10 s 0 := by
  induction zeros with
  | zero => rfl
  | succ k ih => rw [List.replicate_succ, List.cons_append, Nat.ofDigitChars_cons]; exact ih

/-- **Digits are zeros with a decimal behind them**, that of their value. -/
theorem exists_zeros_of_isDigit {s : List Char} (hne : s ≠ [])
    (hs : ∀ c ∈ s, c.isDigit = true) :
    ∃ zeros, s = List.replicate zeros '0' ++ decimal (Nat.ofDigitChars 10 s 0) := by
  induction s using List.reverseRecOn with
  | nil => exact absurd rfl hne
  | append_singleton r c ih =>
      obtain ⟨hlt, hc⟩ := digitChar_toNat (hs c (by simp))
      have hvalue : Nat.ofDigitChars 10 (r ++ [c]) 0 =
          10 * Nat.ofDigitChars 10 r 0 + (c.toNat - '0'.toNat) := by
        rw [Nat.ofDigitChars_append, Nat.ofDigitChars_cons]
        rfl
      rw [hvalue, decimal_eq]
      rcases eq_or_ne r [] with rfl | hr
      · refine ⟨0, ?_⟩
        rw [Nat.ofDigitChars_nil, Nat.mul_zero, Nat.zero_add, if_pos hlt, hc]
        rfl
      · obtain ⟨zeros, heq⟩ := ih hr fun d hd => hs d (List.mem_append_left [c] hd)
        -- Zeros alone have one zero in their decimal, which is none in front of another digit.
        rcases Nat.eq_zero_or_pos (Nat.ofDigitChars 10 r 0) with hzero | hpos
        · have hdecimal : decimal 0 = ['0'] := rfl
          refine ⟨zeros + 1, ?_⟩
          rw [hzero, Nat.mul_zero, Nat.zero_add, if_pos hlt, hc, List.replicate_succ', ← hdecimal,
            ← hzero, ← heq]
        · have hlarge : ¬ 10 * Nat.ofDigitChars 10 r 0 + (c.toNat - '0'.toNat) < 10 := by omega
          have htenth : (10 * Nat.ofDigitChars 10 r 0 + (c.toNat - '0'.toNat)) / 10 =
              Nat.ofDigitChars 10 r 0 := by omega
          have hlast : (10 * Nat.ofDigitChars 10 r 0 + (c.toNat - '0'.toNat)) % 10 =
              c.toNat - '0'.toNat := by omega
          refine ⟨zeros, ?_⟩
          rw [if_neg hlarge, htenth, hlast, hc, ← List.append_assoc, ← heq]

/-! ### Fields -/

/-- The spellings of a number: its decimal, with zeros and a plus sign in front of it. -/
def IsNumeral (n : Nat) (s : List Char) : Prop :=
  ∃ sign zeros, (sign = [] ∨ sign = ['+']) ∧
    s = sign ++ (List.replicate zeros '0' ++ decimal n)

/-- Digits that are read as a field. -/
theorem readDigits_ne_nil_iff {bound n : Nat} {s : List Char} :
    s ≠ [] ∧ readDigits bound 0 s = some n ↔
      n ≤ bound ∧ ∃ zeros, s = List.replicate zeros '0' ++ decimal n := by
  rw [readDigits_eq_some_iff (Nat.zero_le bound)]
  constructor
  · rintro ⟨hne, hs, rfl, hn⟩
    exact ⟨hn, exists_zeros_of_isDigit hne hs⟩
  · rintro ⟨hn, zeros, rfl⟩
    refine ⟨fun h => decimal_ne_nil n (List.append_eq_nil_iff.mp h).2, fun c hc => ?_, ?_, hn⟩
    · rcases List.mem_append.mp hc with hc | hc
      · rw [List.eq_of_mem_replicate hc]
        rfl
      · exact isDigit_of_mem_decimal hc
    · rw [ofDigitChars_replicate_append]
      exact Nat.ofDigitChars_ten_toDigits

/-- A text without a sign is a numeral when it is one of digits. -/
theorem isNumeral_iff_of_head? {n : Nat} {s : List Char} (h : s.head? ≠ some '+') :
    IsNumeral n s ↔ ∃ zeros, s = List.replicate zeros '0' ++ decimal n := by
  constructor
  · rintro ⟨sign, zeros, rfl | rfl, rfl⟩
    · exact ⟨zeros, rfl⟩
    · exact absurd rfl h
  · rintro ⟨zeros, rfl⟩
    exact ⟨[], zeros, .inl rfl, rfl⟩

/-- A plus sign does not count. -/
theorem isNumeral_plus_iff {n : Nat} {r : List Char} :
    IsNumeral n ('+' :: r) ↔ ∃ zeros, r = List.replicate zeros '0' ++ decimal n := by
  constructor
  · rintro ⟨sign, zeros, rfl | rfl, heq⟩
    · have hplus : '+' ∈ List.replicate zeros '0' ++ decimal n := heq ▸ List.mem_cons_self
      rcases List.mem_append.mp hplus with hmem | hmem
      · exact absurd (List.eq_of_mem_replicate hmem) (by decide)
      · exact absurd hmem (notMem_decimal rfl n)
    · exact ⟨zeros, (List.cons.inj heq).2⟩
  · rintro ⟨zeros, rfl⟩
    exact ⟨['+'], zeros, .inr rfl, rfl⟩

/-- **What is read as a field**: the numerals up to the bound. -/
theorem readBounded_eq_some_iff {bound n : Nat} {s : List Char} :
    readBounded bound s = some n ↔ n ≤ bound ∧ IsNumeral n s := by
  have hdigits (r : List Char) :
      (if r.isEmpty then none else readDigits bound 0 r) = some n ↔
        n ≤ bound ∧ ∃ zeros, r = List.replicate zeros '0' ++ decimal n := by
    rw [← readDigits_ne_nil_iff]
    cases r <;> simp
  by_cases hplus : s.head? = some '+'
  · obtain ⟨r, rfl⟩ := List.head?_eq_some_iff.mp hplus
    rw [isNumeral_plus_iff, ← hdigits r]
    rfl
  · rw [isNumeral_iff_of_head? hplus, ← hdigits s]
    unfold readBounded
    split
    · exact absurd rfl hplus
    · rfl

end RealmDirectory.Text
