import RealmDirectory.Url.Host
import RealmDirectory.Proofs.Text.Decimal
import RealmDirectory.Proofs.Text.Splitting
import RealmDirectory.Proofs.Text.Steps
import RealmDirectory.Proofs.Url.Encoding

/-!
# Addresses, read back

The text of an address gives the address again. An address of version 4 is written as four decimals
with dots between them; the reader takes other spellings too, but what is written is read as it was
meant. An address of version 6 is written as hexadecimal numbers with colons between them, with two
colons in a row for the longest run of zeros. The reader finds that gap, since no number is empty,
and fills it with as many zeros as are missing.

## Main results

* `address4?_render4`: an address of version 4 is read back.
* `longestGap_eq_some`: the gap is a run of zeros.
* `address6?_render6`: an address of version 6 is read back.
-/

namespace RealmDirectory.Host

/-! ### Addresses of version 4 -/

/-- The four numbers of an address. -/
def octets (a : UInt32) : List Nat :=
  ([24, 16, 8, 0] : List UInt32).map fun shift => ((a >>> shift) &&& 255).toNat

theorem octets_eq (a : UInt32) :
    octets a = [a.toNat / 2 ^ 24 % 256, a.toNat / 2 ^ 16 % 256, a.toNat / 2 ^ 8 % 256,
      a.toNat % 256] := by
  have hoctet : ∀ n : Nat, n &&& 255 = n % 256 := fun n => Nat.and_two_pow_sub_one_eq_mod n 8
  simp [octets, hoctet, Nat.shiftRight_eq_div_pow]

/-- An address is written as its numbers with dots between them. -/
theorem render4_eq (a : UInt32) :
    render4 a = ['.'].intercalate ((octets a).map Text.decimal) := by
  simp [render4, Text.join, octets]

theorem dot_notMem_decimal (n : Nat) : '.' ∉ Text.decimal n := Text.notMem_decimal rfl n

/-- The labels of an address are its numbers. -/
theorem labels_render4 (a : UInt32) : labels (render4 a) = (octets a).map Text.decimal := by
  have hsplit : Text.splitOn '.' (render4 a) = (octets a).map Text.decimal := by
    rw [render4_eq]
    refine Text.splitOn_intercalate (by simp [octets]) fun s hs => ?_
    obtain ⟨n, -, rfl⟩ := List.mem_map.mp hs
    exact dot_notMem_decimal n
  rw [labels, hsplit, octets_eq]
  simp only [List.map_cons, List.map_nil, List.reverse_cons, List.reverse_nil, List.nil_append,
    List.cons_append]
  split
  · next heq => exact absurd (List.cons.inj heq).1 (Text.decimal_ne_nil _)
  · rfl

/-- A decimal is read as a number of an address. -/
theorem number4?_decimal (n : Nat) : number4? (Text.decimal n) = some n := by
  -- The digits are read onto what stands in front of the last one.
  have hdigits : (Text.decimal n).foldlM (fun n c => do
      let d ← Text.hexValue? c
      if d < 10 then some (10 * n + d) else none) 0 = some n := by
    have hvalue : ∀ m < 10, Text.hexValue? m.digitChar = some m := by decide
    induction n using Nat.strongRecOn with
    | _ n ih =>
        rw [Text.decimal_eq]
        split
        · next hlt => simp [hvalue n hlt, hlt]
        · next hge =>
            have hlt : n % 10 < 10 := Nat.mod_lt n (by decide)
            rw [List.foldlM_append, ih (n / 10) (by omega)]
            simp only [Option.bind_eq_bind, Option.bind_some, List.foldlM_cons, List.foldlM_nil,
              hvalue _ hlt, if_pos hlt]
            simp [Nat.div_add_mod]
  unfold number4?
  split
  · next heq => exact absurd heq (Text.decimal_ne_nil n)
  · next heq => cases Text.tail_eq_nil_of_decimal heq
  · next heq => cases Text.tail_eq_nil_of_decimal heq
  · next heq => cases Text.tail_eq_nil_of_decimal heq
  · exact hdigits

/-- Four numbers below 256 are the bytes of an address. -/
theorem address4?_of_four {s : List Char} {a b c d : Nat}
    (h : (labels s).mapM number4? = some [a, b, c, d])
    (ha : a < 256) (hb : b < 256) (hc : c < 256) (hd : d < 256) :
    address4? s = some (256 * (256 * (256 * a + b) + c) + d).toUInt32 := by
  have hfits : ∀ n < 256, decide (255 < n) = false := fun n hn =>
    decide_eq_false (Nat.not_lt.mpr (Nat.le_of_lt_succ hn))
  have hlast : ¬ Nat.pow 256 1 ≤ d := Nat.not_le.mpr hd
  rw [address4?, h]
  simp only [Option.bind_eq_bind, Option.bind_some, List.getLast?_cons_cons,
    List.getLast?_singleton, List.dropLast_cons_cons, List.dropLast_singleton, List.length_cons,
    List.length_nil, List.any_cons, List.any_nil, List.foldl_cons, List.foldl_nil, hfits a ha,
    hfits b hb, hfits c hc, Bool.or_false]
  rw [if_neg (by simpa using hlast)]
  congr 2
  change (256 * (256 * (256 * 0 + a) + b) + c) * 256 + d = _
  omega

/-- **An address of version 4 is read back.** -/
theorem address4?_render4 (a : UInt32) : address4? (render4 a) = some a := by
  have hnumbers : (labels (render4 a)).mapM number4? = some (octets a) := by
    rw [labels_render4]
    exact mapM_map_eq_pure fun n _ => number4?_decimal n
  have hvalue : 256 * (256 * (256 * (a.toNat / 2 ^ 24 % 256) + a.toNat / 2 ^ 16 % 256) +
      a.toNat / 2 ^ 8 % 256) + a.toNat % 256 = a.toNat := by
    have ha : a.toNat < 2 ^ 32 := a.toNat_lt
    omega
  have hbyte : ∀ n, n % 256 < 256 := fun n => Nat.mod_lt n (by decide)
  rw [octets_eq] at hnumbers
  rw [address4?_of_four hnumbers (hbyte _) (hbyte _) (hbyte _) (hbyte _), hvalue]
  exact congrArg some UInt32.ofNat_toNat

theorem render4_ne_nil (a : UInt32) : render4 a ≠ [] := by
  intro hnil
  have hread := address4?_render4 a
  rw [hnil] at hread
  cases hread

/-- What stands in an address: digits and dots. -/
theorem mem_render4 {a : UInt32} {c : Char} (hc : c ∈ render4 a) :
    c = '.' ∨ c.isDigit = true := by
  rw [render4_eq] at hc
  refine (Text.mem_intercalate hc).imp_right ?_
  rintro ⟨s, hs, hc⟩
  obtain ⟨n, -, rfl⟩ := List.mem_map.mp hs
  exact Text.isDigit_of_mem_decimal hc

/-- The last label of an address is a number. -/
theorem endsInNumber_render4 (a : UInt32) : endsInNumber (render4 a) = true := by
  have hdigits : ∀ n, (Text.decimal n).all (fun c => (Text.digitValue? c).isSome) = true :=
    fun n => List.all_eq_true.mpr fun c hc => by
      rw [Text.digitValue?_of_isDigit (Text.isDigit_of_mem_decimal hc)]
      rfl
  rw [endsInNumber, labels_render4, octets_eq]
  simp [hdigits, Text.decimal_ne_nil]

/-! ### Addresses of version 6 -/

/-- The text of a piece. -/
def hex (p : UInt16) : List Char := Nat.toDigits 16 p.toNat

theorem hexValue?_digitChar : ∀ n < 16, Text.hexValue? n.digitChar = some n := by decide

theorem toDigits_eq (n : Nat) : Nat.toDigits 16 n =
    if n < 16 then [n.digitChar] else Nat.toDigits 16 (n / 16) ++ [(n % 16).digitChar] :=
  Nat.toDigits_eq_if (by decide)

/-- The digits of a number have values that make up the number. -/
theorem exists_mapM_toDigits (n : Nat) :
    ∃ ds, (Nat.toDigits 16 n).mapM Text.hexValue? = some ds ∧
      ds.foldl (fun n d => 16 * n + d) 0 = n := by
  induction n using Nat.strongRecOn with
  | _ n ih =>
      rw [toDigits_eq]
      split
      · next hlt => exact ⟨[n], by simp [hexValue?_digitChar n hlt], by simp⟩
      · next hge =>
          obtain ⟨ds, hds, hvalue⟩ := ih (n / 16) (by omega)
          have hlow := hexValue?_digitChar (n % 16) (Nat.mod_lt n (by decide))
          refine ⟨ds ++ [n % 16], by simp [List.mapM_append, hds, hlow], ?_⟩
          rw [List.foldl_append, hvalue]
          exact Nat.div_add_mod n 16

/-- The digits of a number are hexadecimal ones. -/
theorem isHex_of_mem_toDigits {n : Nat} {c : Char} (hc : c ∈ Nat.toDigits 16 n) :
    Percent.isHex c = true := by
  have hdigit : ∀ m < 16, Percent.isHex m.digitChar = true := by decide
  induction n using Nat.strongRecOn with
  | _ n ih =>
      rw [toDigits_eq] at hc
      split at hc
      · next hlt => exact List.mem_singleton.mp hc ▸ hdigit n hlt
      · next hge =>
          rcases List.mem_append.mp hc with hc | hc
          · exact ih (n / 16) (by omega) hc
          · exact List.mem_singleton.mp hc ▸ hdigit (n % 16) (Nat.mod_lt n (by decide))

theorem notMem_hex {c : Char} (hc : Percent.isHex c = false) (p : UInt16) : c ∉ hex p :=
  fun hmem => Bool.false_ne_true (hc.symm.trans (isHex_of_mem_toDigits hmem))

theorem hex_ne_nil (p : UInt16) : hex p ≠ [] := Nat.toDigits_ne_nil

/-- **A piece is read back.** -/
theorem piece6?_hex (p : UInt16) : piece6? (hex p) = some p := by
  obtain ⟨ds, hds, hvalue⟩ := exists_mapM_toDigits p.toNat
  have hlength : (hex p).length ≤ 4 :=
    (Nat.length_toDigits_le_iff (by decide) (by decide)).mpr p.toNat_lt
  have hempty : (hex p).isEmpty = false := by simpa using hex_ne_nil p
  have hlong : ¬ 4 < (hex p).length := Nat.not_lt.mpr hlength
  rw [piece6?, hempty, Bool.false_or, if_neg (by simpa using hlong), hex, hds, Option.map_some,
    hvalue]
  exact congrArg some UInt16.ofNat_toNat

theorem joined6_eq (l : List UInt16) : joined6 l = [':'].intercalate (l.map hex) := by
  rw [joined6, Text.join, String.toList_intercalate, List.map_map]
  exact congrArg _ (List.map_congr_left fun p _ => String.toList_ofList)

theorem joined6_cons_cons (p q : UInt16) (l : List UInt16) :
    joined6 (p :: q :: l) = hex p ++ ':' :: joined6 (q :: l) := by
  rw [joined6_eq, joined6_eq, List.map_cons, List.map_cons, List.intercalate_cons_cons,
    List.append_assoc]
  rfl

/-- Joined pieces begin with a digit. -/
theorem exists_joined6_cons (p : UInt16) (l : List UInt16) :
    ∃ c r, joined6 (p :: l) = c :: r ∧ Percent.isHex c = true := by
  obtain ⟨c, r, hcr⟩ := List.exists_cons_of_ne_nil (hex_ne_nil p)
  have hc : Percent.isHex c = true := isHex_of_mem_toDigits (n := p.toNat)
    (show c ∈ hex p from hcr ▸ List.mem_cons_self)
  cases l with
  | nil => exact ⟨c, r, by rw [joined6_eq, List.map_singleton, List.intercalate_singleton, hcr], hc⟩
  | cons q l => exact ⟨c, _, by rw [joined6_cons_cons, hcr, List.cons_append], hc⟩

/-- What stands in joined pieces. -/
theorem mem_joined6 {l : List UInt16} {c : Char} (hc : c ∈ joined6 l) :
    c = ':' ∨ Percent.isHex c = true := by
  rw [joined6_eq] at hc
  refine (Text.mem_intercalate hc).imp_right ?_
  rintro ⟨s, hs, hc⟩
  obtain ⟨p, -, rfl⟩ := List.mem_map.mp hs
  exact isHex_of_mem_toDigits hc

/-- Pieces are read back one by one. -/
theorem pieces6?_map_hex (l : List UInt16) : pieces6? (l.map hex) = some l := by
  induction l with
  | nil => rfl
  | cons p l ih =>
      cases l with
      | nil =>
          have hdot : (hex p).contains '.' = false := by
            simpa using notMem_hex rfl p
          rw [List.map_cons, List.map_nil, pieces6?, hdot, piece6?_hex]
          rfl
      | cons q l =>
          rw [List.map_cons] at ih ⊢
          rw [pieces6?, piece6?_hex, List.map_cons, ih]
          · rfl
          · simp

/-- **Joined pieces are read back.** -/
theorem side6?_joined6 (l : List UInt16) : side6? (joined6 l) = some l := by
  cases l with
  | nil => rfl
  | cons p l =>
      have hsplit : Text.splitOn ':' (joined6 (p :: l)) = (p :: l).map hex := by
        rw [joined6_eq]
        refine Text.splitOn_intercalate (by simp) fun s hs => ?_
        obtain ⟨q, -, rfl⟩ := List.mem_map.mp hs
        exact notMem_hex rfl q
      have hempty : (joined6 (p :: l)).isEmpty = false := by
        rw [List.isEmpty_eq_false_iff]
        intro hnil
        rw [hnil] at hsplit
        exact absurd (List.cons.inj hsplit).1.symm (hex_ne_nil p)
      rw [side6?, hempty, hsplit, pieces6?_map_hex]
      rfl

/-- A text without colons is passed over. -/
theorem cutGap_append {x : List Char} (hx : ':' ∉ x) (y : List Char) :
    cutGap (x ++ y) = (cutGap y).map fun p => (x ++ p.1, p.2) := by
  induction x with
  | nil => simp
  | cons c x ih =>
      have hc : c ≠ ':' := fun h => hx (h ▸ List.mem_cons_self)
      rw [List.cons_append, cutGap, ih fun h => hx (List.mem_cons_of_mem c h)]
      · cases cutGap y <;> rfl
      · rintro r rfl
        exact absurd rfl hc

/-- One colon alone is passed over. -/
theorem cutGap_colon {c : Char} (hc : c ≠ ':') (r : List Char) :
    cutGap (':' :: c :: r) = (cutGap (c :: r)).map fun p => (':' :: p.1, p.2) := by
  rw [cutGap]
  rintro r' - heq
  exact hc (List.cons.inj heq).1

/-- **No gap is found among joined pieces**, since none of them is empty. -/
theorem cutGap_joined6_append (l : List UInt16) (y : List Char) :
    cutGap (joined6 l ++ y) = (cutGap y).map fun p => (joined6 l ++ p.1, p.2) := by
  induction l with
  | nil => simp [joined6, Text.join]
  | cons p l ih =>
      cases l with
      | nil =>
          rw [joined6_eq, List.map_singleton, List.intercalate_singleton]
          exact cutGap_append (notMem_hex rfl p) y
      | cons q l =>
          obtain ⟨c, r, hcr, hc⟩ := exists_joined6_cons q l
          have hcolon : c ≠ ':' := fun h => absurd (h ▸ hc) (by decide)
          rw [joined6_cons_cons, List.append_assoc, cutGap_append (notMem_hex rfl p)]
          rw [hcr] at ih ⊢
          rw [List.cons_append, List.cons_append, cutGap_colon hcolon, ← List.cons_append, ih]
          cases cutGap y <;> simp

/-- The zeros at the start of pieces. -/
theorem eq_replicate_zeros_append (l : List UInt16) :
    zeros l ≤ l.length ∧ l = List.replicate (zeros l) 0 ++ l.drop (zeros l) := by
  have hzeros : l.takeWhile (· == 0) = List.replicate (zeros l) 0 :=
    List.eq_replicate_iff.mpr ⟨rfl, fun p hp =>
      eq_of_beq (List.all_eq_true.mp List.all_takeWhile p hp)⟩
  have htake : l.take (zeros l) = l.takeWhile (· == 0) :=
    (List.prefix_iff_eq_take.mp (List.takeWhile_prefix _)).symm
  refine ⟨(List.takeWhile_prefix _).length_le, ?_⟩
  rw [← hzeros, ← htake, List.take_append_drop]

/-- The longer one of a run that was found and the next one. -/
def longer (best : Option (Nat × Nat)) (r : Nat × Nat) : Option (Nat × Nat) :=
  let length := match best with
    | some b => b.2
    | none => 1
  if length < r.2 then some r else best

theorem longestGap_eq (l : List UInt16) :
    longestGap l = ((List.range l.length).map fun i => (i, zeros (l.drop i))).foldl longer none :=
  rfl

/-- The next run is taken when it is longer, and then it has more than one zero. -/
theorem longer_cases {best : Option (Nat × Nat)} (hbest : ∀ b, best = some b → 1 < b.2)
    (next : Nat × Nat) :
    longer best next = best ∨ (longer best next = some next ∧ 1 < next.2) := by
  cases best with
  | none =>
      by_cases hlt : 1 < next.2
      · exact .inr ⟨if_pos hlt, hlt⟩
      · exact .inl (if_neg hlt)
  | some b =>
      by_cases hlt : b.2 < next.2
      · exact .inr ⟨if_pos hlt, Nat.lt_trans (hbest b rfl) hlt⟩
      · exact .inl (if_neg hlt)

/-- What is found is one of the runs, and has more than one zero. -/
theorem mem_of_foldl_longer {runs : List (Nat × Nat)} {best : Option (Nat × Nat)} {r : Nat × Nat}
    (hbest : ∀ b, best = some b → 1 < b.2) (h : runs.foldl longer best = some r) :
    (best = some r ∨ r ∈ runs) ∧ 1 < r.2 := by
  induction runs generalizing best with
  | nil => exact ⟨.inl h, hbest r h⟩
  | cons next runs ih =>
      rw [List.foldl_cons] at h
      rcases longer_cases hbest next with hkept | ⟨htaken, hnext⟩
      · rw [hkept] at h
        exact (ih hbest h).imp_left fun hr => hr.imp_right (List.mem_cons_of_mem next)
      · rw [htaken] at h
        refine (ih (fun b hb => Option.some.inj hb ▸ hnext) h).imp_left fun hr => .inr ?_
        rcases hr with hr | hr
        · exact Option.some.inj hr ▸ List.mem_cons_self
        · exact List.mem_cons_of_mem next hr

/-- **The gap is a run of at least two zeros.** -/
theorem longestGap_eq_some {l : List UInt16} {start length : Nat}
    (h : longestGap l = some (start, length)) :
    2 ≤ length ∧ start + length ≤ l.length ∧
      l = l.take start ++ List.replicate length 0 ++ l.drop (start + length) := by
  rw [longestGap_eq] at h
  obtain ⟨hrun, htwo⟩ := mem_of_foldl_longer (by simp) h
  obtain ⟨i, hi, hrun⟩ := List.mem_map.mp (hrun.resolve_left (by simp))
  obtain ⟨rfl, rfl⟩ := Prod.mk.inj hrun
  obtain ⟨hle, hzeros⟩ := eq_replicate_zeros_append (l.drop i)
  have hlt := List.mem_range.mp hi
  rw [List.length_drop] at hle
  refine ⟨htwo, by omega, ?_⟩
  calc l = l.take i ++ l.drop i := (List.take_append_drop i l).symm
    _ = l.take i ++ (List.replicate (zeros (l.drop i)) 0 ++ (l.drop i).drop (zeros (l.drop i))) :=
        congrArg _ hzeros
    _ = _ := by rw [List.drop_drop, List.append_assoc]

/-- What stands in an address: colons and digits. -/
theorem mem_render6 {l : List UInt16} {c : Char} (hc : c ∈ render6 l) :
    c = ':' ∨ Percent.isHex c = true := by
  rw [render6] at hc
  split at hc
  · exact mem_joined6 hc
  · rw [List.mem_append, List.mem_cons, List.mem_cons] at hc
    rcases hc with hc | rfl | rfl | hc
    · exact mem_joined6 hc
    · exact .inl rfl
    · exact .inl rfl
    · exact mem_joined6 hc

/-- Eight pieces are an address. -/
theorem eight?_toList (v : Vector UInt16 8) : eight? v.toList = some v := by
  rw [eight?, dif_pos v.length_toList]
  rfl

/-- **An address of version 6 is read back.** -/
theorem address6?_render6 (v : Vector UInt16 8) : address6? (render6 v.toList) = some v := by
  rw [render6]
  cases hgap : longestGap v.toList with
  | none =>
      have hnone := cutGap_joined6_append v.toList []
      rw [List.append_nil] at hnone
      rw [address6?, hnone]
      simp [cutGap, side6?_joined6, eight?_toList]
  | some gap =>
      obtain ⟨start, length⟩ := gap
      obtain ⟨htwo, hfits, heq⟩ := longestGap_eq_some hgap
      have hcut := cutGap_joined6_append (v.toList.take start)
        (':' :: ':' :: joined6 (v.toList.drop (start + length)))
      rw [cutGap, Option.map_some, List.append_nil] at hcut
      have hdot : (joined6 (v.toList.take start)).contains '.' = false := by
        simpa using fun hmem => (mem_joined6 hmem).elim (by decide) (by decide)
      rw [Vector.length_toList] at hfits
      have hleft : (v.toList.take start).length = start := by
        rw [List.length_take, Vector.length_toList]; omega
      have hright : (v.toList.drop (start + length)).length = 8 - (start + length) := by
        rw [List.length_drop, Vector.length_toList]
      have hmissing : 8 - start - (8 - (start + length)) = length := by omega
      have hroom : ¬ 7 < start + (8 - (start + length)) := by omega
      simp only [address6?, hcut, side6?_joined6, Option.bind_eq_bind, Option.bind_some, hdot,
        hleft, hright, hmissing, hroom, decide_false, Bool.or_false, Bool.false_eq_true, if_false]
      rw [← heq, eight?_toList]

end RealmDirectory.Host
