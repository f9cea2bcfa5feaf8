import RealmDirectory.Proofs.Password.Engine

/-!
# Families of stored passwords

The algorithms fall into families, which store passwords in texts of different forms: plain
digests, bcrypt, each variant of Argon2, and PBKDF2. All texts with several fields have dollar
signs between them, and some have as many fields as others. A reader takes a text for its own by
more than the number of fields: by the revision of bcrypt, by the name of the variant of Argon2,
and by the number of rounds of PBKDF2. No family writes a text that another one takes for its
own. So a directory whose algorithm is changed to one of another family accepts no password that
was stored before, and reports nothing worse than a malformed hash.

## Main definitions

* `HashFamily`, `HashAlgorithm.family`: the families and their algorithms.
* `HashFamily.Stores`: the fields of the texts that a family stores.
* `HashFamily.Recognizes`: the fields that a family takes for its own.

## Main results

* `HashFamily.Stores.eq_of_recognizes`: no family takes the texts of another for its own.
* `HashEngine.stores_of_hash`: what an engine stores.
* `HashEngine.recognizes_of_verify`: what an engine does not refuse.
* `HashEngine.verify_of_hash_other_family`: an engine refuses what another family stored.
-/

namespace RealmDirectory

/-- No character but the sixteen digits stands in hexadecimal text. -/
theorem Text.notMem_toHex {c : Char} (hc : ∀ n < 16, hexDigit n ≠ c) (bytes : List UInt8) :
    c ∉ toHex bytes := by
  simp only [toHex, List.mem_flatMap, List.mem_cons, List.not_mem_nil, or_false]
  rintro ⟨b, -, h | h⟩
  · exact hc _ (by have := b.toNat_lt; omega) h.symm
  · exact hc _ (Nat.mod_lt _ (by decide)) h.symm

/-! ### Families -/

/-- A family of algorithms that store passwords in texts of one form. -/
inductive HashFamily where
  | digest
  | bcrypt
  | argon2 (variant : Digest.Argon2.Variant)
  | pbkdf2
  deriving DecidableEq, Repr

/-- The family of an algorithm. -/
def HashAlgorithm.family : HashAlgorithm → HashFamily
  | digest _ => .digest
  | bcrypt => .bcrypt
  | argon2 variant => .argon2 variant
  | pbkdf2 => .pbkdf2

namespace HashFamily

/-- The texts that a family stores, as the fields between their dollar signs. -/
inductive Stores : HashFamily → List (List Char) → Prop
  | digest {digits : List Char} : Stores digest [digits]
  | bcrypt {cost letters : List Char} : Stores bcrypt [[], ['2', 'b'], cost, letters]
  | argon2 {variant : Digest.Argon2.Variant} {version parameters salt hash : List Char} :
      Stores (argon2 variant)
        [[], Argon2Text.algorithm variant, version, parameters, salt, hash]
  | pbkdf2 {rounds salt key : List Char} : Stores pbkdf2 [Pbkdf2.name.toList, rounds, salt, key]

/-- The texts that the reader of a family takes for its own, as the fields between their dollar
signs: one field for digests; three fields that are not empty, the first of them a revision, for
bcrypt; the name of the variant behind the first sign for Argon2; and four fields, the second of
them a number of rounds, for PBKDF2. -/
def Recognizes : HashFamily → List (List Char) → Prop
  | digest, fields => ∃ field, fields = [field]
  | bcrypt, fields => ∃ revision cost letters,
      fields.filter (fun f => !f.isEmpty) = [revision, cost, letters] ∧
        revision ∈ Bcrypt.revisions
  | argon2 variant, fields => ∃ rest, fields = [] :: Argon2Text.algorithm variant :: rest
  | pbkdf2, fields => ∃ name rounds salt key n, fields = [name, rounds, salt, key] ∧
      Text.readBounded Text.maxWord32 rounds = some n

/-- The name of a variant tells it from the other ones, and from the revisions of bcrypt. -/
theorem algorithm_injective {v w : Digest.Argon2.Variant}
    (h : Argon2Text.algorithm v = Argon2Text.algorithm w) : v = w := by
  revert h
  cases v <;> cases w <;> decide

theorem algorithm_notMem_revisions (variant : Digest.Argon2.Variant) :
    Argon2Text.algorithm variant ∉ Bcrypt.revisions := by
  cases variant <;> decide

/-- A field that is not empty stays in front when empty fields are left out. -/
theorem filter_cons_of_ne_nil {field : List Char} (h : field ≠ []) (fields : List (List Char)) :
    (field :: fields).filter (fun f => !f.isEmpty) =
      field :: fields.filter fun f => !f.isEmpty :=
  List.filter_cons_of_pos (by simpa using h)

section

variable {family : HashFamily} {fields : List (List Char)} (h : family.Stores fields)

include h

/-- Only digests are one field. -/
theorem Stores.eq_digest (hreader : HashFamily.digest.Recognizes fields) :
    family = .digest := by
  obtain ⟨field, rfl⟩ := hreader
  cases h
  rfl

/-- Only bcrypt has a revision in front. -/
theorem Stores.eq_bcrypt (hreader : HashFamily.bcrypt.Recognizes fields) :
    family = .bcrypt := by
  obtain ⟨revision, cost, letters, hfilled, hrevision⟩ := hreader
  cases h with
  | @digest digits =>
      have hlength := List.length_filter_le (fun f => !f.isEmpty) [digits]
      rw [hfilled] at hlength
      exact absurd hlength (by simp)
  | bcrypt => rfl
  | @argon2 variant version parameters salt hash =>
      have hname : Argon2Text.algorithm variant ≠ [] := (Argon2Text.isName_algorithm variant).ne_nil
      rw [List.filter_cons_of_neg (by decide), filter_cons_of_ne_nil hname] at hfilled
      obtain rfl := (List.cons.inj hfilled).1
      exact absurd hrevision (algorithm_notMem_revisions variant)
  | pbkdf2 =>
      rw [filter_cons_of_ne_nil (by decide)] at hfilled
      obtain rfl := (List.cons.inj hfilled).1
      exact absurd hrevision (by decide)

/-- Only a variant of Argon2 has its name behind the first dollar sign. -/
theorem Stores.eq_argon2 {variant : Digest.Argon2.Variant}
    (hreader : (HashFamily.argon2 variant).Recognizes fields) : family = .argon2 variant := by
  obtain ⟨rest, hrest⟩ := hreader
  cases h with
  | digest => cases hrest
  | bcrypt =>
      have hname : ['2', 'b'] = Argon2Text.algorithm variant :=
        (List.cons.inj (List.cons.inj hrest).2).1
      cases variant <;> exact absurd hname (by decide)
  | argon2 => rw [algorithm_injective (List.cons.inj (List.cons.inj hrest).2).1]
  | pbkdf2 => exact absurd (List.cons.inj hrest).1 (by decide)

/-- Only PBKDF2 has four fields of which the second one is a number. -/
theorem Stores.eq_pbkdf2 (hreader : HashFamily.pbkdf2.Recognizes fields) :
    family = .pbkdf2 := by
  obtain ⟨name, rounds, salt, key, n, hfields, hrounds⟩ := hreader
  cases h with
  | digest => cases hfields
  | bcrypt =>
      -- A revision is not a number, and this alone tells bcrypt from PBKDF2.
      obtain rfl := (List.cons.inj (List.cons.inj hfields).2).1
      cases hrounds
  | argon2 => cases hfields
  | pbkdf2 => rfl

/-- **No family takes the texts of another for its own.** -/
theorem Stores.eq_of_recognizes {reader : HashFamily} (hreader : reader.Recognizes fields) :
    family = reader := by
  cases reader with
  | digest => exact h.eq_digest hreader
  | bcrypt => exact h.eq_bcrypt hreader
  | argon2 variant => exact h.eq_argon2 hreader
  | pbkdf2 => exact h.eq_pbkdf2 hreader

end

end HashFamily

namespace HashEngine

variable {e d : HashEngine} {stored password : String} {salt : Salt}

/-! ### What is stored -/

/-- No dollar sign stands in a digest. -/
theorem splitOn_hexDigest (kind : DigestKind) (password : String) :
    Text.splitOn '$' (kind.hexDigest password).toList = [(kind.hexDigest password).toList] := by
  have hdollar : '$' ∉ (kind.hexDigest password).toList := by
    rw [DigestKind.hexDigest, String.toList_ofList]
    exact Text.notMem_toHex (by decide) _
  exact Text.splitOn_of_notMem hdollar

/-- **An engine stores texts of its family.** -/
theorem stores_of_hash (h : e.hash salt password = .ok stored) :
    e.algorithm.family.Stores (Text.splitOn '$' stored.toList) := by
  have hcheck := check_of_hash h
  simp only [hash, hcheck, bind, Except.bind] at h
  cases halgorithm : e.algorithm with
  | digest kind =>
      simp only [halgorithm, Except.ok.injEq] at h
      rw [← h, splitOn_hexDigest]
      exact .digest
  | bcrypt =>
      simp only [halgorithm, Except.ok.injEq] at h
      rw [← h, Bcrypt.splitOn_write]
      exact .bcrypt
  | argon2 variant =>
      simp only [halgorithm] at h
      split at h
      · cases h
      · obtain rfl := Except.ok.inj h
        rw [Argon2Text.splitOn_write]
        exact .argon2
  | pbkdf2 =>
      simp only [halgorithm, Except.ok.injEq] at h
      rw [← h, Pbkdf2.splitOn_write_compute]
      exact .pbkdf2

/-! ### What is refused -/

/-- A check that does not accept the password, because it is not the stored one or because the
stored text cannot be read. -/
def IsRefusal (result : Except Failure Bool) : Prop :=
  result = .ok false ∨ ∃ detail, result = .error (.malformedHash detail)

/-- A digest accepts nothing but one field. -/
theorem recognizes_of_hexDigest {kind : DigestKind} (h : kind.hexDigest password = stored) :
    HashFamily.digest.Recognizes (Text.splitOn '$' stored.toList) := by
  rw [← h, splitOn_hexDigest]
  exact ⟨_, rfl⟩

/-- Bcrypt refuses what has no revision in front, whatever stands behind. -/
theorem recognizes_of_verifyBcrypt (h : ¬ IsRefusal (verifyBcrypt stored password)) :
    HashFamily.bcrypt.Recognizes (Text.splitOn '$' stored.toList) := by
  refine Bcrypt.exists_revision_of_read fun hread => h ?_
  rw [verifyBcrypt, hread]
  split
  · exact Or.inl rfl
  · exact Or.inr ⟨_, rfl⟩

/-- Argon2 refuses what does not have the name of the variant. -/
theorem recognizes_of_verifyArgon2 {variant : Digest.Argon2.Variant}
    (h : ¬ IsRefusal (verifyArgon2 variant stored password)) :
    (HashFamily.argon2 variant).Recognizes (Text.splitOn '$' stored.toList) := by
  rw [verifyArgon2] at h
  split at h
  · exact absurd (Or.inl rfl) h
  · split at h
    · exact absurd (Or.inr ⟨_, rfl⟩) h
    · next p hparse =>
        split at h
        · exact absurd (Or.inl rfl) h
        · next hname =>
            obtain ⟨rest, hrest⟩ := PhcString.exists_rest_of_parse hparse
            exact ⟨rest, Decidable.not_not.mp hname ▸ hrest⟩

/-- PBKDF2 refuses what is not four fields with a number in the second one. -/
theorem recognizes_of_verifyPbkdf2 (h : ¬ IsRefusal (verifyPbkdf2 stored password)) :
    HashFamily.pbkdf2.Recognizes (Text.splitOn '$' stored.toList) := by
  rw [verifyPbkdf2] at h
  split at h
  · next s hread => exact Pbkdf2.exists_rounds_of_read hread
  · exact absurd (Or.inr ⟨_, rfl⟩) h

/-- **An engine refuses every text that its family does not take for its own.** -/
theorem recognizes_of_verify (hd : d.check = .ok ())
    (h : ¬ IsRefusal (d.verify stored password)) :
    d.algorithm.family.Recognizes (Text.splitOn '$' stored.toList) := by
  simp only [verify, hd, bind, Except.bind] at h
  cases halgorithm : d.algorithm with
  | digest kind =>
      simp only [halgorithm] at h
      have hsame : kind.hexDigest password = stored := by
        refine beq_iff_eq.mp (Bool.of_not_eq_false fun hother => h (Or.inl ?_))
        rw [hother]
      exact recognizes_of_hexDigest hsame
  | bcrypt =>
      simp only [halgorithm] at h
      exact recognizes_of_verifyBcrypt h
  | argon2 variant =>
      simp only [halgorithm] at h
      exact recognizes_of_verifyArgon2 h
  | pbkdf2 =>
      simp only [halgorithm] at h
      exact recognizes_of_verifyPbkdf2 h

/-- **What one family stored is never accepted by another.** An engine of another family finds
that no password is the stored one, or reports that the text is malformed; it accepts none, and
reports no other failure. -/
theorem verify_of_hash_other_family (h : e.hash salt password = .ok stored)
    (hd : d.check = .ok ()) (hne : d.algorithm.family ≠ e.algorithm.family) (other : String) :
    d.verify stored other = .ok false ∨
      ∃ detail, d.verify stored other = .error (.malformedHash detail) := by
  refine Classical.byContradiction fun haccepted => hne ?_
  exact ((stores_of_hash h).eq_of_recognizes (recognizes_of_verify hd haccepted)).symm

/-- A bcrypt hash has the four fields of a PBKDF2 hash, and no password is accepted for it. -/
theorem verify_of_hash_bcrypt_by_pbkdf2 :
    let e : HashEngine := { algorithm := .bcrypt, bcryptCost := 4 }
    let d : HashEngine := { algorithm := .pbkdf2, pbkdf2Rounds := 1000 }
    let salt : Salt := Vector.replicate 16 7
    (d.check = .ok () ∧ d.algorithm.family ≠ e.algorithm.family) ∧
      ∃ stored, e.hash salt "Tr0ub4dor&3" = .ok stored ∧
        (Text.splitOn '$' stored.toList).length = 4 ∧
        (d.verify stored "Tr0ub4dor&3" = .ok false ∨
          ∃ detail, d.verify stored "Tr0ub4dor&3" = .error (.malformedHash detail)) := by
  intro e d salt
  have hd : d.check = .ok () := rfl
  have hne : d.algorithm.family ≠ e.algorithm.family := by decide
  obtain ⟨stored, hstored⟩ : ∃ stored, e.hash salt "Tr0ub4dor&3" = .ok stored :=
    exists_hash rfl salt fun _ h => nomatch h
  refine ⟨⟨hd, hne⟩, stored, hstored, ?_, verify_of_hash_other_family hstored hd hne _⟩
  have hfields : HashFamily.bcrypt.Stores (Text.splitOn '$' stored.toList) :=
    stores_of_hash hstored
  generalize Text.splitOn '$' stored.toList = fields at hfields
  cases hfields
  rfl

end HashEngine

end RealmDirectory
