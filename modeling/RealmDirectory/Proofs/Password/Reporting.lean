import RealmDirectory.Proofs.Password.Engine
import RealmDirectory.Proofs.Password.Requests

/-!
# What is reported of stored texts

A check of a password can fail because of the stored text. Most texts that cannot be used are
reported as malformed. But bcrypt and Argon2 read a stored text in two steps, and a text that
passes the first one and not the second is reported as an internal failure, as if the directory
itself had gone wrong: a bcrypt text whose cost is a number outside 4 to 31, and an Argon2 text
whose parameters, version or salt ask for nothing that can be computed. Plain digests and PBKDF2
have no such texts. Nothing else is reported, and no report depends on the password.

## Main definitions

* `Bcrypt.HasCost`: the bcrypt texts that can be read up to their cost.
* `HashAlgorithm.RefusesLate`: the texts that pass the first step alone.

## Main results

* `Bcrypt.read_eq_costNotAllowed_iff`: which texts have a cost that is not allowed.
* `HashEngine.verifyBcrypt_eq_error_iff`, `HashEngine.verifyArgon2_eq_error_iff`,
  `HashEngine.verifyPbkdf2_eq_error_iff`: what each family of algorithms reports.
* `HashEngine.exists_internal_iff`: which texts are reported as internal failures.
* `HashEngine.verify_reports_iff`: what is reported, and of which texts.
-/

namespace RealmDirectory

namespace Bcrypt

variable {text : String} {cost : Nat}

/-- The two parts of a text that is cut. -/
theorem eq_append_of_takeBytes? {n : Nat} {s x y : List Char} (h : takeBytes? n s = some (x, y)) :
    s = x ++ y := by
  induction n, s using takeBytes?.induct generalizing x with
  | case1 s =>
      rw [takeBytes?] at h
      obtain ⟨rfl, rfl⟩ := Prod.mk.inj (Option.some.inj h)
      rfl
  | case2 n =>
      rw [takeBytes?] at h
      cases h
  | case3 n c r hlarge =>
      rw [takeBytes?, if_pos hlarge] at h
      cases h
  | case4 n c r hfits ih =>
      rw [takeBytes?, if_neg hfits] at h
      obtain ⟨⟨x', y'⟩, hcut, heq⟩ := Option.map_eq_some_iff.mp h
      obtain ⟨rfl, rfl⟩ := Prod.mk.inj heq
      rw [ih hcut, List.cons_append]

/-- Bytes of the right number are those of the vector. -/
theorem eq_toList_of_exactly? {n : Nat} {bytes : List UInt8} {v : Vector UInt8 n}
    (h : exactly? n bytes = some v) : bytes = v.toList := by
  rw [exactly?] at h
  split at h
  · obtain rfl := Option.some.inj h
    rfl
  · cases h

/-- **The letters of a salt** and what stands behind them. -/
theorem exists_salt_iff {letters : List Char} {salt : Vector UInt8 16} :
    (∃ x rest, takeBytes? 22 letters = some (x, rest) ∧
        (Text.Alphabet.dotted.decode? x).bind (exactly? 16) = some salt) ↔
      ∃ rest, letters = Text.Alphabet.dotted.encode salt.toList ++ rest := by
  constructor
  · rintro ⟨x, rest, hcut, hsalt⟩
    obtain ⟨bytes, hdecode, hsize⟩ := Option.bind_eq_some_iff.mp hsalt
    obtain rfl := eq_toList_of_exactly? hsize
    obtain rfl := Text.Alphabet.eq_encode_of_decode? (by decide) hdecode
    exact ⟨rest, eq_append_of_takeBytes? hcut⟩
  · rintro ⟨rest, rfl⟩
    have hlength : (Text.Alphabet.dotted.encode salt.toList).length = 22 := by
      rw [Text.Alphabet.length_encode, Vector.length_toList]
    have hcut := takeBytes?_append (utf8Size_of_mem_encode salt.toList) rest
    rw [hlength] at hcut
    exact ⟨_, rest, hcut, decode?_bind_exactly? salt⟩

/-- A text that can be read up to its cost: three fields that are not empty, a revision, a numeral
for the cost, and 53 bytes that begin with the letters of a salt. -/
def HasCost (text : String) (cost : Nat) : Prop :=
  ∃ (revision field rest : List Char) (salt : Vector UInt8 16),
    (Text.splitOn '$' text.toList).filter (fun f => !f.isEmpty) =
        [revision, field, Text.Alphabet.dotted.encode salt.toList ++ rest] ∧
      revision ∈ revisions ∧ (cost ≤ Text.maxWord32 ∧ Text.IsNumeral cost field) ∧
      (Text.utf8Bytes (Text.Alphabet.dotted.encode salt.toList ++ rest)).length = 53

/-- A text whose cost is not allowed is refused for it, whatever stands behind the salt. -/
theorem read_of_hasCost (h : HasCost text cost) (hcost : allowsCost cost = false) :
    read text = .error (.costNotAllowed cost) := by
  obtain ⟨revision, field, rest, salt, hfields, hrevision, hnumeral, hlength⟩ := h
  obtain ⟨x, y, hcut, hsalt⟩ : ∃ x y,
      takeBytes? 22 (Text.Alphabet.dotted.encode salt.toList ++ rest) = some (x, y) ∧
        (Text.Alphabet.dotted.decode? x).bind (exactly? 16) = some salt :=
    exists_salt_iff.mpr ⟨rest, rfl⟩
  rw [read, hfields]
  simp only [List.contains_iff_mem.mpr hrevision, Text.readBounded_eq_some_iff.mpr hnumeral,
    hlength, hcut, hsalt, hcost, Bool.not_true, Bool.not_false, Bool.false_eq_true, if_false,
    if_true, ne_eq, not_true_eq_false]

/-- **Which texts have a cost that is not allowed.** -/
theorem read_eq_costNotAllowed_iff :
    read text = .error (.costNotAllowed cost) ↔
      HasCost text cost ∧ allowsCost cost = false := by
  refine ⟨fun h => ?_, fun h => read_of_hasCost h.1 h.2⟩
  -- Each of the other ends of the reader is another result.
  rw [read] at h
  split at h
  case h_2 => cases h
  next revision field letters hfields =>
  split at h
  case isTrue => cases h
  next hrevision =>
  split at h
  case h_1 => cases h
  next found hnumeral =>
  split at h
  case isTrue => cases h
  next hlength =>
  split at h
  case h_1 => cases h
  next x rest hcut =>
  split at h
  case h_1 => cases h
  next salt hsalt =>
  split at h
  case isFalse => split at h <;> cases h
  next hcost =>
  obtain rfl : found = cost := by injection h with h; injection h
  obtain ⟨rest, rfl⟩ := exists_salt_iff.mp ⟨x, rest, hcut, hsalt⟩
  have hrevision : revision ∈ revisions := by simpa using hrevision
  have hcost : allowsCost found = false := by simpa using hcost
  exact ⟨⟨revision, field, rest, salt, hfields, hrevision,
    Text.readBounded_eq_some_iff.mp hnumeral, Decidable.not_not.mp hlength⟩, hcost⟩

end Bcrypt

/-- The stored texts that an algorithm takes apart and then cannot use: for bcrypt those with a
cost that is not allowed, and for a variant of Argon2 those with all fields, under its name, that
ask for nothing that can be computed. -/
def HashAlgorithm.RefusesLate : HashAlgorithm → String → Prop
  | bcrypt, stored => ∃ cost, Bcrypt.HasCost stored cost ∧ Bcrypt.allowsCost cost = false
  | argon2 variant, stored =>
      ∃ p salt hash, PhcString.parse stored = .ok p ∧
        p.algorithm = Argon2Text.algorithm variant ∧ p.salt = some salt ∧ p.hash = some hash ∧
        ¬ Argon2Text.IsAnswerable p salt
  | digest _, _ | pbkdf2, _ => False

namespace HashEngine

variable {stored password : String} {f : Failure}

/-! ### Each family of algorithms -/

/-- **What is reported of a bcrypt text.** -/
theorem verifyBcrypt_eq_error_iff :
    verifyBcrypt stored password = .error f ↔
      (stored ≠ "" ∧ Bcrypt.read stored = .error .malformed ∧
          f = .malformedHash "stored value is not a bcrypt hash") ∨
        ∃ cost, (Bcrypt.HasCost stored cost ∧ Bcrypt.allowsCost cost = false) ∧
          f = .internal
            ("Failed to verify bcrypt password: Cost needs to be between 4 and 31, got " ++
              String.ofList (Text.decimal cost)) := by
  simp only [← Bcrypt.read_eq_costNotAllowed_iff]
  rcases eq_or_ne stored "" with rfl | hne
  · have hempty : Bcrypt.read "" = .error .malformed := rfl
    simp [verifyBcrypt, hempty]
  · have hfull : stored.isEmpty = false := by simpa using hne
    simp only [verifyBcrypt, hfull, Bool.false_eq_true, if_false]
    cases hread : Bcrypt.read stored with
    | ok s => simp
    | error fault =>
        cases fault with
        | malformed => simp [hne, eq_comm]
        | costNotAllowed cost => simp [eq_comm]

/-- **What is reported of an Argon2 text.** -/
theorem verifyArgon2_eq_error_iff {variant : Digest.Argon2.Variant} :
    verifyArgon2 variant stored password = .error f ↔
      (∃ fault, stored ≠ "" ∧ PhcString.parse stored = .error fault ∧
          f = .malformedHash
            ("Failed to parse " ++ variantName variant ++ " hash: " ++ fault.message)) ∨
        ∃ p fault, PhcString.parse stored = .ok p ∧
          p.algorithm = Argon2Text.algorithm variant ∧
          (∃ salt hash, p.salt = some salt ∧ p.hash = some hash ∧
            Argon2Text.request p salt = .error fault) ∧
          f = .internal
            ("Failed to verify " ++ variantName variant ++ " password: " ++ fault.message) := by
  simp only [← Argon2Text.accepts_eq_error_iff variant (Digest.utf8 password)]
  rcases eq_or_ne stored "" with rfl | hne
  · have hempty : PhcString.parse "" = .error .missingField := rfl
    simp [verifyArgon2, hempty]
  · have hfull : stored.isEmpty = false := by simpa using hne
    simp only [verifyArgon2, hfull, Bool.false_eq_true, if_false]
    cases hparse : PhcString.parse stored with
    | error fault => simp [hne, eq_comm]
    | ok p =>
        by_cases hname : p.algorithm = Argon2Text.algorithm variant
        · cases haccepts : Argon2Text.accepts variant p (Digest.utf8 password) with
          | ok accepted => simp [hname, haccepts]
          | error fault => simp [hname, haccepts, eq_comm]
        · simp [hname]

/-- **What is reported of a PBKDF2 text.** -/
theorem verifyPbkdf2_eq_error_iff :
    verifyPbkdf2 stored password = .error f ↔
      ∃ fault, Pbkdf2.read stored = .error fault ∧ f = .malformedHash fault.message := by
  rw [verifyPbkdf2]
  cases hread : Pbkdf2.read stored with
  | ok s => simp
  | error fault => simp [eq_comm]

/-! ### All algorithms -/

variable {e : HashEngine}

/-- bcrypt texts that cannot be used are those with a cost that is not allowed. -/
theorem exists_internal_bcrypt_iff :
    (∃ detail, verifyBcrypt stored password = .error (.internal detail)) ↔
      HashAlgorithm.RefusesLate .bcrypt stored := by
  simp only [verifyBcrypt_eq_error_iff, HashAlgorithm.RefusesLate]
  constructor
  · rintro ⟨detail, ⟨-, -, h⟩ | ⟨cost, hcost, -⟩⟩
    · cases h
    · exact ⟨cost, hcost⟩
  · rintro ⟨cost, hcost⟩
    exact ⟨_, .inr ⟨cost, hcost, rfl⟩⟩

/-- Argon2 texts that cannot be used are those that ask for nothing that can be computed. -/
theorem exists_internal_argon2_iff {variant : Digest.Argon2.Variant} :
    (∃ detail, verifyArgon2 variant stored password = .error (.internal detail)) ↔
      HashAlgorithm.RefusesLate (.argon2 variant) stored := by
  simp only [verifyArgon2_eq_error_iff, HashAlgorithm.RefusesLate]
  constructor
  · rintro ⟨detail, ⟨fault, -, -, h⟩ | ⟨p, fault, hparse, hname, hrequest, -⟩⟩
    · cases h
    · obtain ⟨salt, hash, hsalt, hhash, hrequest⟩ := hrequest
      refine ⟨p, salt, hash, hparse, hname, hsalt, hhash, fun hanswerable => ?_⟩
      obtain ⟨r, hr⟩ := Argon2Text.exists_request_iff.mpr hanswerable
      cases hr.symm.trans hrequest
  · rintro ⟨p, salt, hash, hparse, hname, hsalt, hhash, hanswerable⟩
    cases hrequest : Argon2Text.request p salt with
    | ok r => exact absurd (Argon2Text.exists_request_iff.mp ⟨r, hrequest⟩) hanswerable
    | error fault =>
        exact ⟨_, .inr ⟨p, fault, hparse, hname, ⟨salt, hash, hsalt, hhash, hrequest⟩, rfl⟩⟩

/-- What an engine reports of a stored text, which is a matter of its algorithm alone. -/
theorem verify_eq_of_check (hcheck : e.check = .ok ()) (stored password : String) :
    e.verify stored password =
      match e.algorithm with
      | .digest kind => .ok (kind.hexDigest password == stored)
      | .bcrypt => verifyBcrypt stored password
      | .argon2 variant => verifyArgon2 variant stored password
      | .pbkdf2 => verifyPbkdf2 stored password := by
  rw [verify, hcheck]
  rfl

/-- An engine that can work at its cost reports no stored text as anything but malformed or an
internal failure. -/
theorem eq_malformedHash_or_internal (hcheck : e.check = .ok ())
    (h : e.verify stored password = .error f) :
    (∃ detail, f = .malformedHash detail) ∨ ∃ detail, f = .internal detail := by
  rw [verify_eq_of_check hcheck] at h
  split at h
  · cases h
  · rcases verifyBcrypt_eq_error_iff.mp h with ⟨-, -, rfl⟩ | ⟨cost, -, rfl⟩
    · exact .inl ⟨_, rfl⟩
    · exact .inr ⟨_, rfl⟩
  · rcases verifyArgon2_eq_error_iff.mp h with ⟨fault, -, -, rfl⟩ | ⟨p, fault, -, -, -, rfl⟩
    · exact .inl ⟨_, rfl⟩
    · exact .inr ⟨_, rfl⟩
  · obtain ⟨fault, -, rfl⟩ := verifyPbkdf2_eq_error_iff.mp h
    exact .inl ⟨_, rfl⟩

/-- **Which stored texts are reported as internal failures.** -/
theorem exists_internal_iff (hcheck : e.check = .ok ()) :
    (∃ detail, e.verify stored password = .error (.internal detail)) ↔
      e.algorithm.RefusesLate stored := by
  rw [verify_eq_of_check hcheck]
  cases e.algorithm with
  | digest kind => simp [HashAlgorithm.RefusesLate]
  | bcrypt => exact exists_internal_bcrypt_iff
  | argon2 variant => exact exists_internal_argon2_iff
  | pbkdf2 => simp [verifyPbkdf2_eq_error_iff, HashAlgorithm.RefusesLate]

/-- What is reported does not depend on the password. -/
theorem verify_eq_error_of_other {other : String} (hcheck : e.check = .ok ())
    (h : e.verify stored password = .error f) : e.verify stored other = .error f := by
  rw [verify_eq_of_check hcheck] at h ⊢
  cases halgorithm : e.algorithm with
  | digest kind =>
      rw [halgorithm] at h
      cases h
  | bcrypt =>
      rw [halgorithm] at h
      exact verifyBcrypt_eq_error_iff.mpr (verifyBcrypt_eq_error_iff.mp h)
  | argon2 variant =>
      rw [halgorithm] at h
      exact verifyArgon2_eq_error_iff.mpr (verifyArgon2_eq_error_iff.mp h)
  | pbkdf2 =>
      rw [halgorithm] at h
      exact verifyPbkdf2_eq_error_iff.mpr (verifyPbkdf2_eq_error_iff.mp h)

/-- **What is reported of a stored text, and of which.** Of the texts that are taken apart and then
cannot be used, an engine that can work at its cost reports an internal failure. With every other
text, it tells whether a password is the stored one, or reports that the text is malformed. What is
reported does not depend on the password. -/
theorem verify_reports_iff (hcheck : e.check = .ok ()) (stored : String) :
    (e.algorithm.RefusesLate stored →
        ∀ password, ∃ detail, e.verify stored password = .error (.internal detail)) ∧
      (¬ e.algorithm.RefusesLate stored → ∀ password,
        (∃ accepted, e.verify stored password = .ok accepted) ∨
          ∃ detail, e.verify stored password = .error (.malformedHash detail)) ∧
      ∀ password other f,
        e.verify stored password = .error f → e.verify stored other = .error f := by
  refine ⟨fun hlate password => (exists_internal_iff hcheck).mpr hlate,
    fun hlate password => ?_, fun password other f => verify_eq_error_of_other hcheck⟩
  cases hverify : e.verify stored password with
  | ok accepted => exact .inl ⟨accepted, rfl⟩
  | error f =>
      rcases eq_malformedHash_or_internal hcheck hverify with ⟨detail, rfl⟩ | ⟨detail, rfl⟩
      · exact .inr ⟨detail, rfl⟩
      · exact absurd ((exists_internal_iff hcheck).mp ⟨detail, hverify⟩) hlate

/-- A bcrypt text with a cost of 32 and an Argon2 text with one block of memory are taken apart, and
reported as internal failures, whatever the password. -/
theorem verify_reports_iff_out_of_range :
    let bcrypt : HashEngine := { algorithm := .bcrypt, bcryptCost := 4 }
    let argon2 : HashEngine := { algorithm := .argon2 .id, argon2 := ⟨64, 3, 4⟩ }
    let costly := "$2b$32$" ++ String.ofList (List.replicate 53 '.')
    let tiny := "$argon2id$v=19$m=1,t=1,p=1$c2FsdHNhbHQ$AAAAAAAAAAAAAA"
    bcrypt.check = .ok () ∧ argon2.check = .ok () ∧
      (∀ password, ∃ detail, bcrypt.verify costly password = .error (.internal detail)) ∧
      ∀ password, ∃ detail, argon2.verify tiny password = .error (.internal detail) := by
  intro bcrypt argon2 costly tiny
  have hcostly : bcrypt.algorithm.RefusesLate costly :=
    exists_internal_bcrypt_iff.mp ⟨_, (by decide +kernel : verifyBcrypt costly "" = .error
      (.internal "Failed to verify bcrypt password: Cost needs to be between 4 and 31, got 32"))⟩
  have htiny : argon2.algorithm.RefusesLate tiny :=
    exists_internal_argon2_iff.mp ⟨_, (by decide +kernel : verifyArgon2 .id tiny "" = .error
      (.internal "Failed to verify Argon2id password: invalid parameter value: value to short"))⟩
  exact ⟨rfl, rfl, (verify_reports_iff rfl costly).1 hcostly,
    (verify_reports_iff rfl tiny).1 htiny⟩

end HashEngine

end RealmDirectory
