import RealmDirectory.Proofs.Password.Argon2
import RealmDirectory.Proofs.Text.Numeral

/-!
# What stored Argon2 texts ask for

A stored Argon2 text is read in two steps. The first one takes its fields apart and looks at
their shape alone. The second one, when a password is checked, asks what the fields mean: which
numbers the parameters give, of which the last of a name counts, which version is meant, and for
which bytes the letters of the salt stand. A text can pass the first step and still ask for
nothing that can be computed. What it has to say for the second step is told here field by field.

## Main definitions

* `Argon2Text.Allows`: the costs that can be used.
* `Argon2Text.IsKnown`: the parameters that have a meaning.
* `Argon2Text.costOf`: the cost that parameters give.
* `Argon2Text.IsAnswerable`: the texts that ask for a computation.

## Main results

* `Argon2Text.checkCost_eq_ok_iff`: which costs are accepted.
* `Argon2Text.exists_readParameters_iff`: which parameters are accepted.
* `Argon2Text.exists_request_iff`: which texts ask for a computation.
* `Argon2Text.accepts_eq_error_iff`: when a check fails.
-/

namespace RealmDirectory

namespace PhcString

/-! ### Numbers and bytes -/

/-- **What is read as a number**: the decimals of 32 bits. -/
theorem readDecimal_eq_ok_iff {s : List Char} {n : Nat} :
    readDecimal s = .ok n ↔ n ≤ Text.maxWord32 ∧ s = Text.decimal n := by
  constructor
  · intro h
    match s, h with
    | d :: r, h =>
        simp only [readDecimal] at h
        split at h
        · cases h
        · split at h
          · cases h
          · next hzero =>
              split at h
              · next m hread =>
                  obtain rfl := Except.ok.inj h
                  obtain ⟨hn, zeros, heq⟩ :=
                    Text.readDigits_ne_nil_iff.mp ⟨List.cons_ne_nil d r, hread⟩
                  refine ⟨hn, ?_⟩
                  -- A zero in front of the decimal would be the first of several digits.
                  cases zeros with
                  | zero => rwa [List.replicate_zero, List.nil_append] at heq
                  | succ k =>
                      rw [List.replicate_succ, List.cons_append] at heq
                      obtain ⟨rfl, rfl⟩ := List.cons.inj heq
                      exact absurd ⟨rfl, List.append_ne_nil_of_right_ne_nil _
                        (Text.decimal_ne_nil m)⟩ hzero
              · cases h
  · rintro ⟨hn, rfl⟩
    exact readDecimal_decimal hn

/-- **What is read as bytes**: their letters, up to a number of bytes. -/
theorem readBytes_eq_ok_iff {bound : Nat} {s : List Char} {bytes : List UInt8} :
    readBytes bound s = .ok bytes ↔
      bytes.length ≤ bound ∧ s = Text.Alphabet.standard.encode bytes := by
  constructor
  · intro h
    rw [readBytes] at h
    split at h
    · cases h
    · next hbound =>
        split at h
        · next found hread =>
            obtain rfl := Except.ok.inj h
            obtain rfl := Text.Alphabet.eq_encode_of_decode? (by decide) hread
            rw [byteLength_encode, Text.Alphabet.decodedLength_length_encode] at hbound
            exact ⟨Nat.le_of_not_lt hbound, rfl⟩
        · cases h
  · rintro ⟨hbound, rfl⟩
    exact readBytes_encode hbound

end PhcString

namespace Argon2Text

open Digest.Argon2 (Cost Version)

/-! ### Costs -/

/-- A cost that can be used: each lane has eight blocks of memory, and there are passes and
lanes, of which there are at most as many as 24 bits can count. -/
structure Allows (c : Cost) : Prop where
  memory : 8 ≤ c.memory
  memory_of_lanes : 8 * c.lanes ≤ c.memory
  passes : 1 ≤ c.passes
  lanes : 1 ≤ c.lanes
  lanes_le : c.lanes ≤ maxLanes

/-- **Which costs are accepted.** -/
theorem checkCost_eq_ok_iff {c : Cost} : checkCost c = .ok () ↔ Allows c := by
  constructor
  · intro h
    rw [checkCost] at h
    split at h
    · cases h
    · split at h
      · cases h
      · split at h
        · cases h
        · split at h
          · cases h
          · constructor <;> omega
  · intro h
    have hmemory := h.memory
    have hlanes := h.memory_of_lanes
    rw [checkCost, if_neg (by omega), if_neg (Nat.pos_iff_ne_zero.mp h.passes),
      if_neg (Nat.pos_iff_ne_zero.mp h.lanes), if_neg (Nat.not_lt.mpr h.lanes_le)]

/-! ### Parameters -/

/-- A parameter that has a meaning: a number for one of the three parts of the cost, the letters
of at most eight bytes for the name of a key, or of at most 32 bytes for the additional data. -/
inductive IsKnown : List Char × List Char → Prop
  | number {name : List Char} {n : Nat} (hname : name ∈ [['m'], ['t'], ['p']])
      (hn : n ≤ Text.maxWord32) : IsKnown (name, Text.decimal n)
  | keyName {bytes : List UInt8} (h : bytes.length ≤ 8) :
      IsKnown (['k', 'e', 'y', 'i', 'd'], Text.Alphabet.standard.encode bytes)
  | data {bytes : List UInt8} (h : bytes.length ≤ 32) :
      IsKnown (['d', 'a', 't', 'a'], Text.Alphabet.standard.encode bytes)

/-- The number that the last parameter of a name gives. -/
def numberOf (entries : List (List Char × List Char)) (name : List Char) (usual : Nat) : Nat :=
  match entries.reverse.lookup name with
  | some value => Nat.ofDigitChars 10 value 0
  | none => usual

/-- The cost that parameters give. -/
def costOf (entries : List (List Char × List Char)) : Cost where
  memory := numberOf entries ['m'] 19456
  passes := numberOf entries ['t'] 2
  lanes := numberOf entries ['p'] 1

/-- One more parameter gives the number of its name and no other one. -/
theorem numberOf_append (entries : List (List Char × List Char)) (name other value : List Char)
    (usual : Nat) :
    numberOf (entries ++ [(other, value)]) name usual =
      if name = other then Nat.ofDigitChars 10 value 0 else numberOf entries name usual := by
  by_cases h : name = other
  · simp [numberOf, h]
  · have hne : (name == other) = false := by simp [h]
    simp [numberOf, List.lookup_cons, hne, h]

theorem ofDigitChars_decimal (n : Nat) : Nat.ofDigitChars 10 (Text.decimal n) 0 = n :=
  Nat.ofDigitChars_ten_toDigits

variable {p q : Parameters} {entry : List Char × List Char}
  {entries : List (List Char × List Char)}

/-- A parameter that has a meaning is accepted. -/
theorem exists_readParameter (h : IsKnown entry) (p : Parameters) :
    ∃ q, readParameter p entry = .ok q := by
  cases h with
  | number hname hn =>
      have hread := PhcString.readDecimal_decimal hn
      simp only [List.mem_cons, List.not_mem_nil, or_false] at hname
      rcases hname with rfl | rfl | rfl <;>
        simp only [readParameter, hread, bind, Except.bind] <;> exact ⟨_, rfl⟩
  | keyName h =>
      simp only [readParameter, PhcString.readBytes_encode h, bind, Except.bind]
      exact ⟨_, rfl⟩
  | data h =>
      simp only [readParameter, PhcString.readBytes_encode h, bind, Except.bind]
      exact ⟨_, rfl⟩

/-- A number that was read was written in decimal. -/
theorem exists_of_readDecimal_bind {value : List Char} {set : Nat → Parameters}
    (h : (PhcString.readDecimal value >>= fun n => .ok (set n)) = .ok q) :
    ∃ n ≤ Text.maxWord32, value = Text.decimal n ∧ q = set n := by
  obtain ⟨n, hread, h⟩ := exists_of_bind_ok h
  obtain ⟨hn, hvalue⟩ := PhcString.readDecimal_eq_ok_iff.mp hread
  exact ⟨n, hn, hvalue, (Except.ok.inj h).symm⟩

/-- Bytes that were read were written in letters. -/
theorem exists_of_readBytes_bind {bound : Nat} {value : List Char}
    {set : List UInt8 → Parameters}
    (h : (PhcString.readBytes bound value >>= fun bytes => .ok (set bytes)) = .ok q) :
    ∃ bytes : List UInt8, bytes.length ≤ bound ∧
      value = Text.Alphabet.standard.encode bytes ∧ q = set bytes := by
  obtain ⟨bytes, hread, h⟩ := exists_of_bind_ok h
  obtain ⟨hlength, hvalue⟩ := PhcString.readBytes_eq_ok_iff.mp hread
  exact ⟨bytes, hlength, hvalue, (Except.ok.inj h).symm⟩

/-- **What one parameter does**: it has a meaning, and behind others it gives the cost of all of
them. -/
theorem readParameter_eq_ok (h : readParameter p entry = .ok q) (hcost : p.cost = costOf entries) :
    IsKnown entry ∧ q.cost = costOf (entries ++ [entry]) := by
  unfold readParameter at h
  split at h
  · obtain ⟨n, hn, rfl, rfl⟩ := exists_of_readDecimal_bind h
    exact ⟨.number (by decide) hn, by simp [costOf, numberOf_append, ofDigitChars_decimal, hcost]⟩
  · obtain ⟨n, hn, rfl, rfl⟩ := exists_of_readDecimal_bind h
    exact ⟨.number (by decide) hn, by simp [costOf, numberOf_append, ofDigitChars_decimal, hcost]⟩
  · obtain ⟨n, hn, rfl, rfl⟩ := exists_of_readDecimal_bind h
    exact ⟨.number (by decide) hn, by simp [costOf, numberOf_append, ofDigitChars_decimal, hcost]⟩
  · obtain ⟨bytes, hlength, rfl, rfl⟩ := exists_of_readBytes_bind h
    exact ⟨.keyName hlength, by simp [costOf, numberOf_append, hcost]⟩
  · obtain ⟨bytes, hlength, rfl, rfl⟩ := exists_of_readBytes_bind h
    exact ⟨.data hlength, by simp [costOf, numberOf_append, hcost]⟩
  · cases h

/-- Reading parameters gives a result when all of them have a meaning. -/
theorem exists_foldlM_readParameter (h : ∀ entry ∈ entries, IsKnown entry) (p : Parameters) :
    ∃ q, entries.foldlM readParameter p = .ok q := by
  induction entries generalizing p with
  | nil => exact ⟨p, rfl⟩
  | cons entry entries ih =>
      obtain ⟨next, hnext⟩ := exists_readParameter (h entry List.mem_cons_self) p
      obtain ⟨q, hq⟩ := ih (fun e he => h e (List.mem_cons_of_mem entry he)) next
      refine ⟨q, ?_⟩
      rw [List.foldlM_cons, hnext]
      exact hq

/-- Parameters that were read have a meaning and give the cost, behind others that were read
before. -/
theorem foldlM_readParameter_eq_ok {done : List (List Char × List Char)}
    (h : entries.foldlM readParameter p = .ok q) (hcost : p.cost = costOf done) :
    (∀ entry ∈ entries, IsKnown entry) ∧ q.cost = costOf (done ++ entries) := by
  induction entries generalizing p done with
  | nil =>
      obtain rfl := Except.ok.inj h
      exact ⟨fun e he => absurd he List.not_mem_nil, by rw [List.append_nil, hcost]⟩
  | cons entry entries ih =>
      rw [List.foldlM_cons] at h
      obtain ⟨next, hnext, h⟩ := exists_of_bind_ok h
      obtain ⟨hknown, hcost⟩ := readParameter_eq_ok hnext hcost
      obtain ⟨hall, hrest⟩ := ih h hcost
      rw [List.append_assoc, List.singleton_append] at hrest
      exact ⟨List.forall_mem_cons.mpr ⟨hknown, hall⟩, hrest⟩

/-- **Which parameters are accepted**: those that have a meaning and give a cost that can be
used. -/
theorem exists_readParameters_iff :
    (∃ q, readParameters entries = .ok q) ↔
      (∀ entry ∈ entries, IsKnown entry) ∧ Allows (costOf entries) := by
  have husual : Parameters.default.cost = costOf [] := rfl
  rw [← checkCost_eq_ok_iff]
  constructor
  · rintro ⟨q, h⟩
    obtain ⟨p, hfold, h⟩ := exists_of_bind_ok h
    obtain ⟨hknown, hcost⟩ := foldlM_readParameter_eq_ok hfold husual
    rw [List.nil_append] at hcost
    split at h
    · next hcheck => exact ⟨hknown, hcost ▸ hcheck⟩
    · cases h
  · rintro ⟨hknown, hcheck⟩
    obtain ⟨p, hfold⟩ := exists_foldlM_readParameter hknown .default
    obtain ⟨-, hcost⟩ := foldlM_readParameter_eq_ok hfold husual
    rw [List.nil_append] at hcost
    refine ⟨p, ?_⟩
    simp only [readParameters, hfold, bind, Except.bind, hcost, hcheck]

/-! ### Versions and salts -/

/-- **Which versions are accepted.** -/
theorem exists_readVersion_iff {version : Option Nat} :
    (∃ v, readVersion version = .ok v) ↔
      ∀ n, version = some n → n = Version.v16.number ∨ n = Version.v19.number := by
  cases version with
  | none => exact ⟨fun _ _ h => (nomatch h), fun _ => ⟨_, rfl⟩⟩
  | some n =>
      simp only [readVersion, Option.some.injEq, forall_eq']
      constructor
      · rintro ⟨v, h⟩
        split at h
        · next h16 => exact .inl h16
        · split at h
          · next h19 => exact .inr h19
          · cases h
      · intro h
        split
        · exact ⟨_, rfl⟩
        · next h16 => exact ⟨_, if_pos (h.resolve_left h16)⟩

/-- **Which salts are accepted**: the letters of 8 to 64 bytes. -/
theorem readSalt_eq_ok_iff {salt : List Char} {bytes : List UInt8} :
    readSalt salt = .ok bytes ↔
      8 ≤ bytes.length ∧ bytes.length ≤ 64 ∧ salt = Text.Alphabet.standard.encode bytes := by
  constructor
  · intro h
    obtain ⟨found, hread, h⟩ := exists_of_bind_ok h
    split at h
    · cases h
    · next hshort =>
        obtain rfl := Except.ok.inj h
        exact ⟨Nat.le_of_not_lt hshort, PhcString.readBytes_eq_ok_iff.mp hread⟩
  · rintro ⟨hshort, hread⟩
    simp only [readSalt, PhcString.readBytes_eq_ok_iff.mpr hread, bind, Except.bind,
      if_neg (Nat.not_lt.mpr hshort)]

/-! ### Whole texts -/

/-- A text that asks for a computation: its parameters have a meaning and give a cost that can be
used, its version is a known one when it names any, and its salt has enough bytes. -/
structure IsAnswerable (p : PhcString) (salt : List Char) : Prop where
  isKnown : ∀ entry ∈ p.parameters, IsKnown entry
  allows : Allows (costOf p.parameters)
  version : ∀ n, p.version = some n → n = Version.v16.number ∨ n = Version.v19.number
  salt : ∃ bytes : List UInt8, 8 ≤ bytes.length ∧ bytes.length ≤ 64 ∧
    salt = Text.Alphabet.standard.encode bytes

/-- **Which texts ask for a computation.** -/
theorem exists_request_iff {p : PhcString} {salt : List Char} :
    (∃ r, request p salt = .ok r) ↔ IsAnswerable p salt := by
  constructor
  · rintro ⟨r, h⟩
    obtain ⟨parameters, hparameters, h⟩ := exists_of_bind_ok h
    obtain ⟨version, hversion, h⟩ := exists_of_bind_ok h
    obtain ⟨bytes, hsalt, -⟩ := exists_of_bind_ok h
    obtain ⟨hknown, hallows⟩ := exists_readParameters_iff.mp ⟨parameters, hparameters⟩
    exact ⟨hknown, hallows, exists_readVersion_iff.mp ⟨version, hversion⟩, bytes,
      readSalt_eq_ok_iff.mp hsalt⟩
  · rintro ⟨hknown, hallows, hversion, bytes, hsalt⟩
    obtain ⟨parameters, hparameters⟩ := exists_readParameters_iff.mpr ⟨hknown, hallows⟩
    obtain ⟨version, hversion⟩ := exists_readVersion_iff.mpr hversion
    simp only [request, hparameters, hversion, readSalt_eq_ok_iff.mpr hsalt, bind, Except.bind]
    exact ⟨_, rfl⟩

/-- **When a check fails**: when the text has a salt and a hash, and asks for nothing that can be
computed. The password has no part in it. -/
theorem accepts_eq_error_iff (variant : Digest.Argon2.Variant) (password : List UInt8)
    {p : PhcString} {fault : PhcFault} :
    accepts variant p password = .error fault ↔
      ∃ salt hash, p.salt = some salt ∧ p.hash = some hash ∧ request p salt = .error fault := by
  rw [accepts]
  split
  · next salt hash hsalt hhash =>
      cases hrequest : request p salt with
      | ok r => simp [hsalt, hhash, hrequest, bind, Except.bind]
      | error found => simp [hsalt, hhash, hrequest, bind, Except.bind]
  · next hmissing =>
      constructor
      · intro h
        cases h
      · rintro ⟨salt, hash, hsalt, hhash, -⟩
        exact absurd hhash (hmissing salt hash hsalt)

end Argon2Text

end RealmDirectory
