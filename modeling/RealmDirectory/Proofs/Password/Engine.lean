import RealmDirectory.Password.Engine
import RealmDirectory.Proofs.Password.Argon2
import RealmDirectory.Proofs.Password.Bcrypt
import RealmDirectory.Proofs.Password.Pbkdf2

/-!
# Hashing and checking passwords

Whatever an engine needs to check a password stands in the stored text, so that a password
that was hashed is accepted by every engine for the same algorithm, also at another cost. A
directory can change its cost without losing the passwords it has.

An engine is *usable* when it was built from the name of an algorithm, its costs were
accepted on the way, and its algorithm can work at its cost. A usable engine hashes every
password; only a password of 2^32 bytes or more is too long for Argon2.

## Main definitions

* `HashEngine.IsBuilt`, `HashEngine.IsUsable`: how engines come about.

## Main results

* `HashEngine.exists_hash`: a usable engine hashes a password.
* `HashEngine.verify_of_hash`: what it stored is accepted by the engines for its algorithm.
* `HashEngine.hash_verify`: both together.
-/

namespace RealmDirectory

/-- A byte is written in two digits. -/
theorem Text.length_toHex (bytes : List UInt8) : (toHex bytes).length = 2 * bytes.length := by
  induction bytes with
  | nil => rfl
  | cons b r ih =>
      simp only [toHex] at ih
      simp only [toHex, List.flatMap_cons, List.length_append, List.length_cons,
        List.length_nil, ih]
      omega

/-- A digest has bytes, so its text is not empty. -/
theorem DigestKind.hexDigest_ne_empty (kind : DigestKind) (password : String) :
    kind.hexDigest password ≠ "" := by
  intro h
  have hlength := congrArg (fun s => s.toList.length) h
  have hsize : 0 < kind.size := by cases kind <;> decide
  simp only [hexDigest, String.toList_ofList, Text.length_toHex, Vector.length_toList,
    String.toList_empty, List.length_nil] at hlength
  omega

namespace HashEngine

/-- Engines that are built from the name of an algorithm, with costs that are accepted. -/
inductive IsBuilt : HashEngine → Prop
  | named {name : String} {e : HashEngine} (h : ofName name = .ok e) : IsBuilt e
  | bcryptCost {e d : HashEngine} {cost : Nat} (built : IsBuilt e)
      (h : e.withBcryptCost cost = .ok d) : IsBuilt d
  | argon2Settings {e : HashEngine} {settings : Argon2Settings} (built : IsBuilt e) :
      IsBuilt (e.withArgon2Settings settings)
  | pbkdf2Rounds {e d : HashEngine} {rounds : UInt32} (built : IsBuilt e)
      (h : e.withPbkdf2Rounds rounds = .ok d) : IsBuilt d

/-- Engines that were built and whose algorithm can work at their cost. -/
structure IsUsable (e : HashEngine) : Prop where
  built : e.IsBuilt
  check : e.check = .ok ()

variable {e d : HashEngine} {stored password : String} {salt : Salt}

/-! ### Building -/

/-- An engine from a name has the usual cost. -/
theorem eq_of_ofName {name : String} (h : ofName name = .ok e) :
    ∃ algorithm, e = { algorithm } := by
  cases hname : HashAlgorithm.ofName name with
  | error f =>
      simp only [ofName, hname, bind, Except.bind] at h
      cases h
  | ok algorithm =>
      simp only [ofName, hname, bind, Except.bind] at h
      exact ⟨algorithm, (Except.ok.inj h).symm⟩

/-- An accepted cost of bcrypt changes nothing else. -/
theorem eq_of_withBcryptCost {cost : Nat} (h : e.withBcryptCost cost = .ok d) :
    Bcrypt.allowsCost cost = true ∧ d = { e with bcryptCost := cost } := by
  cases hcost : Bcrypt.allowsCost cost with
  | false =>
      simp only [withBcryptCost, checkBcryptCost, hcost, bind, Except.bind,
        Bool.false_eq_true, if_false] at h
      cases h
  | true =>
      simp only [withBcryptCost, checkBcryptCost, hcost, bind, Except.bind, if_true] at h
      exact ⟨rfl, (Except.ok.inj h).symm⟩

/-- An accepted number of rounds is positive and changes nothing else. -/
theorem eq_of_withPbkdf2Rounds {rounds : UInt32} (h : e.withPbkdf2Rounds rounds = .ok d) :
    rounds ≠ 0 ∧ d = { e with pbkdf2Rounds := rounds } := by
  rw [withPbkdf2Rounds] at h
  split at h
  · cases h
  · next hrounds => exact ⟨hrounds, (Except.ok.inj h).symm⟩

/-- **An engine never has no rounds of PBKDF2.** -/
theorem IsBuilt.pbkdf2Rounds_ne_zero (h : e.IsBuilt) : e.pbkdf2Rounds ≠ 0 := by
  induction h with
  | named h =>
      obtain ⟨algorithm, rfl⟩ := eq_of_ofName h
      exact (by decide : (650000 : UInt32) ≠ 0)
  | bcryptCost _ h ih =>
      rw [(eq_of_withBcryptCost h).2]
      exact ih
  | argon2Settings _ ih => exact ih
  | pbkdf2Rounds _ h _ =>
      rw [(eq_of_withPbkdf2Rounds h).2]
      exact (eq_of_withPbkdf2Rounds h).1

/-! ### What an engine checks first -/

theorem check_of_hash (h : e.hash salt password = .ok stored) : e.check = .ok () := by
  cases hcheck : e.check with
  | ok u => rfl
  | error f =>
      simp only [hash, hcheck, bind, Except.bind] at h
      cases h

theorem allowsCost_of_check (halgorithm : e.algorithm = .bcrypt) (h : e.check = .ok ()) :
    Bcrypt.allowsCost e.bcryptCost = true := by
  simp only [HashEngine.check, halgorithm, checkBcryptCost] at h
  split at h
  · next hcost => exact hcost
  · cases h

theorem check_argon2_of_check {variant : Digest.Argon2.Variant}
    (halgorithm : e.algorithm = .argon2 variant) (h : e.check = .ok ()) :
    e.argon2.check = .ok () := by
  simp only [HashEngine.check, halgorithm, checkArgon2Settings] at h
  split at h
  · next hsettings => exact hsettings
  · cases h

/-! ### Each family of algorithms -/

/-- A bcrypt hash of an allowed cost accepts the passwords with the same hash. -/
theorem verifyBcrypt_write_eq {cost : Nat} (h : Bcrypt.allowsCost cost = true) (salt : Salt)
    (p q : String) :
    verifyBcrypt (Bcrypt.write ⟨cost, salt, Bcrypt.compute cost salt p⟩) q =
      .ok (decide (Bcrypt.compute cost salt q = Bcrypt.compute cost salt p)) := by
  have hread : Bcrypt.read (Bcrypt.write ⟨cost, salt, Bcrypt.compute cost salt p⟩) =
      .ok ⟨cost, salt, Bcrypt.compute cost salt p⟩ := Bcrypt.read_write h
  simp only [verifyBcrypt, Bcrypt.isEmpty_write, Bool.false_eq_true, if_false, hread,
    Bool.beq_eq_decide_eq]

/-- A bcrypt hash of an allowed cost accepts the password that was hashed. -/
theorem verifyBcrypt_write {cost : Nat} (h : Bcrypt.allowsCost cost = true) (salt : Salt)
    (password : String) :
    verifyBcrypt (Bcrypt.write ⟨cost, salt, Bcrypt.compute cost salt password⟩) password =
      .ok true := by
  rw [verifyBcrypt_write_eq h, decide_eq_true rfl]

/-- An Argon2 hash of a usable cost accepts the password that was hashed. -/
theorem verifyArgon2_write {variant : Digest.Argon2.Variant} {settings : Argon2Settings}
    (h : settings.check = .ok ()) (salt : Salt)
    (hlong : Argon2Text.isTooLong (Digest.utf8 password) = false) :
    verifyArgon2 variant
        (Argon2Text.write variant settings salt (Digest.utf8 password)) password = .ok true := by
  have halgorithm : (Argon2Text.newFields variant settings salt
      (Digest.utf8 password)).algorithm = Argon2Text.algorithm variant := rfl
  simp only [verifyArgon2, Argon2Text.isEmpty_write, Bool.false_eq_true, if_false,
    Argon2Text.parse_write, halgorithm, ne_eq, not_true_eq_false,
    Argon2Text.accepts_write h salt hlong]

/-- A PBKDF2 hash of some rounds accepts the password that was hashed. -/
theorem verifyPbkdf2_write {rounds : Nat} (hpos : 0 < rounds)
    (hbound : rounds ≤ Text.maxWord32) (salt : Salt) (password : String) :
    verifyPbkdf2 (Pbkdf2.write (Pbkdf2.compute rounds (Pbkdf2.base64 salt.toList) password))
        password = .ok true := by
  rw [verifyPbkdf2, Pbkdf2.read_write_compute hpos hbound salt.toList password]
  simp only [Pbkdf2.compute, beq_self_eq_true]

/-! ### All algorithms -/

/-- **A usable engine hashes every password**, except that Argon2 takes less than 2^32
bytes. -/
theorem exists_hash (h : e.check = .ok ()) (salt : Salt)
    (hlength : ∀ variant, e.algorithm = .argon2 variant →
      (Digest.utf8 password).length < 2 ^ 32) :
    ∃ stored, e.hash salt password = .ok stored := by
  simp only [hash, h, bind, Except.bind]
  cases halgorithm : e.algorithm with
  | digest kind => exact ⟨_, rfl⟩
  | bcrypt => exact ⟨_, rfl⟩
  | argon2 variant =>
      have hlong : Argon2Text.isTooLong (Digest.utf8 password) = false :=
        decide_eq_false (Nat.not_lt.mpr (Nat.le_of_lt_succ (hlength variant halgorithm)))
      simp only [hlong, Bool.false_eq_true, if_false]
      exact ⟨_, rfl⟩
  | pbkdf2 => exact ⟨_, rfl⟩

/-- **What a usable engine stored is accepted** by every engine for its algorithm, whatever
the cost of that engine. -/
theorem verify_of_hash (he : e.IsBuilt) (hd : d.check = .ok ())
    (hsame : d.algorithm = e.algorithm) (h : e.hash salt password = .ok stored) :
    d.verify stored password = .ok true := by
  have hcheck := check_of_hash h
  simp only [hash, hcheck, bind, Except.bind] at h
  simp only [verify, hd, bind, Except.bind, hsame]
  cases halgorithm : e.algorithm with
  | digest kind =>
      simp only [halgorithm, Except.ok.injEq] at h
      subst h
      simp only [beq_self_eq_true]
  | bcrypt =>
      simp only [halgorithm, Except.ok.injEq] at h
      subst h
      exact verifyBcrypt_write (allowsCost_of_check halgorithm hcheck) salt password
  | argon2 variant =>
      simp only [halgorithm] at h
      split at h
      · cases h
      · next hlong =>
          obtain rfl := Except.ok.inj h
          exact verifyArgon2_write (check_argon2_of_check halgorithm hcheck) salt
            (Bool.of_not_eq_true hlong)
  | pbkdf2 =>
      simp only [halgorithm, Except.ok.injEq] at h
      subst h
      have hpos : 0 < e.pbkdf2Rounds.toNat :=
        Nat.pos_of_ne_zero fun hzero => he.pbkdf2Rounds_ne_zero (UInt32.toNat_inj.mp hzero)
      exact verifyPbkdf2_write hpos (Nat.le_of_lt_succ e.pbkdf2Rounds.toNat_lt) salt password

/-- An empty text is accepted by no engine. -/
theorem verify_empty_ne (e : HashEngine) (password : String) :
    e.verify "" password ≠ .ok true := by
  intro h
  cases hcheck : e.check with
  | error f =>
      simp only [verify, hcheck, bind, Except.bind] at h
      cases h
  | ok u =>
      simp only [verify, hcheck, bind, Except.bind] at h
      cases halgorithm : e.algorithm with
      | digest kind =>
          simp only [halgorithm, Except.ok.injEq, beq_iff_eq] at h
          exact kind.hexDigest_ne_empty password h
      | bcrypt => simp [halgorithm, verifyBcrypt] at h
      | argon2 variant => simp [halgorithm, verifyArgon2] at h
      | pbkdf2 =>
          have hread : Pbkdf2.read "" = .error (.fieldCount 1) := rfl
          simp [halgorithm, verifyPbkdf2, hread] at h

/-- **A password that was hashed is accepted**: the engine stores a text for it, and every
engine for the same algorithm finds in that text all that it needs to accept the password. -/
theorem hash_verify (he : e.IsUsable) (hd : d.IsUsable) (hsame : d.algorithm = e.algorithm)
    (salt : Salt) (hlength : (Digest.utf8 password).length < 2 ^ 32) :
    ∃ stored, e.hash salt password = .ok stored ∧ d.verify stored password = .ok true := by
  obtain ⟨stored, hstored⟩ := exists_hash he.check salt fun _ _ => hlength
  exact ⟨stored, hstored, verify_of_hash he.built hd.check hsame hstored⟩

/-- A password that was hashed by Argon2 at a low cost is accepted by an engine that hashes at
the usual one. -/
theorem hash_verify_at_other_cost :
    let low : HashEngine := { algorithm := .argon2 .id, argon2 := ⟨64, 3, 4⟩ }
    let usual : HashEngine := { algorithm := .argon2 .id }
    let salt : Salt := Vector.replicate 16 7
    (low.IsUsable ∧ usual.IsUsable ∧ usual.algorithm = low.algorithm ∧
      (Digest.utf8 "Tr0ub4dor&3").length < 2 ^ 32) ∧
    ∃ stored, low.hash salt "Tr0ub4dor&3" = .ok stored ∧
      usual.verify stored "Tr0ub4dor&3" = .ok true := by
  intro low usual salt
  have hnamed : ofName "Argon2id" = .ok usual := rfl
  have hset : usual.withArgon2Settings ⟨64, 3, 4⟩ = low := rfl
  have husual : usual.IsUsable := ⟨.named hnamed, rfl⟩
  have hlow : low.IsUsable := ⟨hset ▸ .argon2Settings husual.built, rfl⟩
  have hlength : (Digest.utf8 "Tr0ub4dor&3").length < 2 ^ 32 := by decide +kernel
  exact ⟨⟨hlow, husual, rfl, hlength⟩, hash_verify hlow husual rfl salt hlength⟩

end HashEngine

end RealmDirectory
