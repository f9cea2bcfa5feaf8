import Mathlib.Algebra.Group.Nat.Defs
import RealmDirectory.Text.Number

/-!
# Decimals, read back

A number that is written in decimal is read back, up to a bound and by each of the readers:
digit by digit onto what was read before, and as a whole field. What is written has no
leading zero and is as long as the number is large, which is what the stricter readers of
stored hashes ask for.

## Main results

* `readDigits_decimal`, `readBounded_decimal`: a decimal is read back.
* `decimal_injective`: numbers are told apart by their decimals.
* `tail_eq_nil_of_decimal`: a decimal that begins with a zero is the zero.
* `isDigit_of_mem_decimal`, `length_decimal_le`: what a decimal is made of, and its length.
-/

namespace RealmDirectory.Text

/-! ### Digits -/

/-- A decimal consists of digits. -/
theorem isDigit_of_mem_decimal {n : Nat} {c : Char} (h : c ∈ decimal n) :
    c.isDigit = true :=
  Nat.isDigit_of_mem_toDigits (by decide) (by decide) h

/-- A decimal has a digit. -/
theorem decimal_ne_nil (n : Nat) : decimal n ≠ [] := Nat.toDigits_ne_nil

/-- A character that is no digit does not stand in a decimal. -/
theorem notMem_decimal {c : Char} (h : c.isDigit = false) (n : Nat) : c ∉ decimal n := by
  intro hc
  rw [isDigit_of_mem_decimal hc] at h
  cases h

/-- A number below a power of ten has at most as many digits as the power has zeros. -/
theorem length_decimal_le {n k : Nat} (hk : 0 < k) (h : n < 10 ^ k) :
    (decimal n).length ≤ k :=
  (Nat.length_toDigits_le_iff (by decide) hk).mpr h

/-- A number of one digit is that digit, and any other number begins as its tenth does. -/
theorem decimal_eq (n : Nat) :
    decimal n = if n < 10 then [n.digitChar] else decimal (n / 10) ++ [(n % 10).digitChar] :=
  Nat.toDigits_eq_if (by decide)

/-- **A decimal that begins with a zero is the zero.** -/
theorem tail_eq_nil_of_decimal {n : Nat} {r : List Char} (h : decimal n = '0' :: r) :
    r = [] := by
  -- A positive number begins with the first digit of its tenth, down to one digit.
  have hdigit : ∀ m < 10, 0 < m → [m.digitChar].head? ≠ some '0' := by decide
  have hpos : ∀ m, 0 < m → (decimal m).head? ≠ some '0' := by
    intro m
    induction m using Nat.strongRecOn with
    | _ m ih =>
        intro hm
        rw [decimal_eq]
        split
        · next hlt => exact hdigit m hlt hm
        · next hge =>
            obtain ⟨c, s, hs⟩ := List.exists_cons_of_ne_nil (decimal_ne_nil (m / 10))
            have hfirst := ih (m / 10) (by omega) (by omega)
            rw [hs] at hfirst ⊢
            exact hfirst
  obtain rfl | hn := Nat.eq_zero_or_pos n
  · rw [decimal_eq] at h
    simpa using (List.cons.inj h).2.symm
  · exact absurd (by rw [h]; rfl) (hpos n hn)

/-! ### Reading digits -/

/-- The value of a digit is its distance from the zero. -/
theorem digitValue?_of_isDigit {c : Char} (h : c.isDigit = true) :
    digitValue? c = some (c.toNat - '0'.toNat) := by
  have hc : '0' ≤ c ∧ c ≤ '9' := by
    simpa [Char.isDigit, Char.le_def] using h
  rw [digitValue?, if_pos hc]

/-- Reading digits onto a number makes it no smaller. -/
theorem le_ofDigitChars (s : List Char) (acc : Nat) : acc ≤ Nat.ofDigitChars 10 s acc := by
  rw [Nat.ofDigitChars_eq_ofDigitChars_zero]
  have hpow : 0 < 10 ^ s.length := Nat.pow_pos (by decide)
  exact Nat.le_add_right_of_le (Nat.le_mul_of_pos_left acc hpow)

/-- Digits are read up to the bound that their number respects. -/
theorem readDigits_eq {bound : Nat} {s : List Char} (hs : ∀ c ∈ s, c.isDigit = true)
    (acc : Nat) (hbound : Nat.ofDigitChars 10 s acc ≤ bound) :
    readDigits bound acc s = some (Nat.ofDigitChars 10 s acc) := by
  induction s generalizing acc with
  | nil => rfl
  | cons c r ih =>
      have hc : digitValue? c = some (c.toNat - '0'.toNat) :=
        digitValue?_of_isDigit (hs c List.mem_cons_self)
      rw [Nat.ofDigitChars_cons, Nat.mul_comm] at hbound ⊢
      have hnext : acc * 10 + (c.toNat - '0'.toNat) ≤ bound :=
        Nat.le_trans (le_ofDigitChars r _) hbound
      simp only [readDigits, hc, Option.bind_eq_bind, Option.bind_some, if_pos hnext]
      exact ih (fun d hd => hs d (List.mem_cons_of_mem c hd)) _ hbound

/-- **A decimal is read back**, up to a bound. -/
theorem readDigits_decimal {bound n : Nat} (h : n ≤ bound) :
    readDigits bound 0 (decimal n) = some n := by
  have hvalue : Nat.ofDigitChars 10 (decimal n) 0 = n := Nat.ofDigitChars_ten_toDigits
  have hread : readDigits bound 0 (decimal n) = some (Nat.ofDigitChars 10 (decimal n) 0) :=
    readDigits_eq (fun c => isDigit_of_mem_decimal) 0 (hvalue.symm ▸ h)
  rwa [hvalue] at hread

/-- Numbers are told apart by their decimals. -/
theorem decimal_injective {m n : Nat} (h : decimal m = decimal n) : m = n := by
  have hm := readDigits_decimal (Nat.le_max_left m n)
  rw [h, readDigits_decimal (Nat.le_max_right m n)] at hm
  exact (Option.some.inj hm).symm

/-- A text of digits is read as a field. -/
theorem readBounded_of_isDigit {bound : Nat} {s : List Char} (hne : s ≠ [])
    (hs : ∀ c ∈ s, c.isDigit = true) : readBounded bound s = readDigits bound 0 s := by
  obtain ⟨c, r, rfl⟩ := List.exists_cons_of_ne_nil hne
  have hplus : c ≠ '+' := by
    rintro rfl
    exact absurd (hs '+' List.mem_cons_self) (by decide)
  unfold readBounded
  split
  · next heq => exact absurd (List.cons.inj heq).1 hplus
  · rfl

/-- **A decimal is read back as a field.** -/
theorem readBounded_decimal {bound n : Nat} (h : n ≤ bound) :
    readBounded bound (decimal n) = some n := by
  rw [readBounded_of_isDigit (decimal_ne_nil n) fun c => isDigit_of_mem_decimal]
  exact readDigits_decimal h

end RealmDirectory.Text
