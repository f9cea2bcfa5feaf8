import RealmDirectory.Password.Pbkdf2
import RealmDirectory.Proofs.Text.Base64
import RealmDirectory.Proofs.Text.Decimal
import RealmDirectory.Proofs.Text.Splitting

/-!
# Stored PBKDF2 hashes, read back

The stored text of a hash is read back when its rounds are a positive number of 32 bits and
no dollar sign stands in its salt or its key. Both hold of every hash that is computed under
a salt in Base64. The salt enters the key as the bytes of its text, when a hash is made as
well as when it is checked, so that the text is all that has to be kept.

## Main results

* `Pbkdf2.read_write`: a hash is read back from its stored text.
* `Pbkdf2.read_write_compute`: so is every hash under a salt in Base64.
* `Pbkdf2.exists_rounds_of_read`: what can be read has four fields, one of them a number.
-/

namespace RealmDirectory.Pbkdf2

/-- No dollar sign stands in Base64, padding included. -/
theorem dollar_notMem_base64 (bytes : List UInt8) : '$' ∉ (base64 bytes).toList := by
  have hdollar : '$' ∉ Text.Alphabet.standard.letters := by decide
  rw [base64, String.toList_ofList, Text.Alphabet.encodePadded, List.mem_append]
  rintro (h | h)
  · exact Text.Alphabet.notMem_encode Text.Alphabet.isProper_standard hdollar _ h
  · exact absurd (List.eq_of_mem_replicate h) (by decide)

/-- The dollar signs of a stored text stand between its fields. -/
theorem splitOn_write {s : Stored} (hsalt : '$' ∉ s.salt.toList) (hkey : '$' ∉ s.key.toList) :
    Text.splitOn '$' (write s).toList =
      [name.toList, Text.decimal s.rounds, s.salt.toList, s.key.toList] := by
  have hname : '$' ∉ name.toList := by decide
  have hrounds : '$' ∉ Text.decimal s.rounds := Text.notMem_decimal rfl _
  have hdollar : "$".toList = ['$'] := rfl
  have htext : (write s).toList =
      name.toList ++ '$' :: (Text.decimal s.rounds ++ '$' ::
        (s.salt.toList ++ '$' :: s.key.toList)) := by
    simp only [write, String.toList_append, String.toList_ofList, hdollar, List.append_assoc,
      List.cons_append, List.nil_append]
  rw [htext, Text.splitOn_append_cons hname, Text.splitOn_append_cons hrounds,
    Text.splitOn_append_cons hsalt, Text.splitOn_of_notMem hkey]

/-- No dollar sign stands in the salt and the key of a hash under a salt in Base64. -/
theorem splitOn_write_compute (rounds : Nat) (salt : List UInt8) (password : String) :
    Text.splitOn '$' (write (compute rounds (base64 salt) password)).toList =
      [name.toList, Text.decimal rounds, (base64 salt).toList,
        (compute rounds (base64 salt) password).key.toList] :=
  splitOn_write (dollar_notMem_base64 _) (dollar_notMem_base64 _)

/-- The fields of a stored text. -/
theorem fields_write {s : Stored} (hsalt : '$' ∉ s.salt.toList) (hkey : '$' ∉ s.key.toList) :
    Text.fields '$' (write s) =
      [name, String.ofList (Text.decimal s.rounds), s.salt, s.key] := by
  rw [Text.fields, splitOn_write hsalt hkey]
  simp only [List.map_cons, List.map_nil, String.ofList_toList]

/-- **A hash is read back from its stored text**, when no dollar sign stands in its salt or
its key. -/
theorem read_write {s : Stored} (hpos : 0 < s.rounds) (hbound : s.rounds ≤ Text.maxWord32)
    (hsalt : '$' ∉ s.salt.toList) (hkey : '$' ∉ s.key.toList) : read (write s) = .ok s := by
  obtain ⟨rounds, salt, key⟩ := s
  obtain ⟨n, rfl⟩ := Nat.exists_eq_succ_of_ne_zero (Nat.pos_iff_ne_zero.mp hpos)
  have hread := Text.readBounded_decimal hbound
  rw [read, fields_write hsalt hkey]
  simp only [String.toList_ofList, hread]

/-- **Every hash under a salt in Base64 is read back.** -/
theorem read_write_compute {rounds : Nat} (hpos : 0 < rounds)
    (hbound : rounds ≤ Text.maxWord32) (salt : List UInt8) (password : String) :
    read (write (compute rounds (base64 salt) password)) =
      .ok (compute rounds (base64 salt) password) :=
  read_write hpos hbound (dollar_notMem_base64 _) (dollar_notMem_base64 _)

/-- A text that can be read has four fields, and a number in the second one. -/
theorem exists_rounds_of_read {text : String} {s : Stored} (h : read text = .ok s) :
    ∃ name rounds salt key n, Text.splitOn '$' text.toList = [name, rounds, salt, key] ∧
      Text.readBounded Text.maxWord32 rounds = some n := by
  rw [read] at h
  split at h
  · next hfields =>
      simp only [Text.fields, List.map_eq_cons_iff, List.map_eq_nil_iff] at hfields
      obtain ⟨name, _, hsplit, rfl, rounds, _, rfl, rfl, salt, _, rfl, rfl, key, _, rfl, rfl,
        rfl⟩ := hfields
      rw [String.toList_ofList] at h
      cases hrounds : Text.readBounded Text.maxWord32 rounds with
      | none =>
          rw [hrounds] at h
          cases h
      | some n => exact ⟨name, rounds, salt, key, n, hsplit, hrounds⟩
  · cases h

end RealmDirectory.Pbkdf2
