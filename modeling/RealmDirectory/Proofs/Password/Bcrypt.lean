import RealmDirectory.Password.Bcrypt
import RealmDirectory.Proofs.Text.Base64
import RealmDirectory.Proofs.Text.Decimal
import RealmDirectory.Proofs.Text.Splitting

/-!
# Stored bcrypt hashes, read back

The stored text of a hash is three fields behind dollar signs: the revision, the cost in two
digits, and 22 letters of the salt with 31 letters of the hash behind them. The letters of
the alphabet take one byte each, so that the reader's cut after 22 bytes falls between the
two, and no letter and no digit is a dollar sign.

## Main results

* `Bcrypt.read_write`: a hash whose cost is allowed is read back from its stored text.
* `Bcrypt.exists_revision_of_read`: a text that is not malformed begins with a revision.
-/

namespace RealmDirectory.Bcrypt

/-! ### Bytes of a text -/

/-- Some bytes of a known number are a vector of that size. -/
theorem exactly?_toList {n : Nat} (v : Vector UInt8 n) : exactly? n v.toList = some v := by
  have harray : v.toList.toArray = v.toArray := Vector.toArray_toList
  simp only [exactly?, harray, dif_pos v.size_toArray]

/-- A text of letters of one byte each is cut behind as many bytes as it has letters. -/
theorem takeBytes?_append {x : List Char} (hx : ∀ c ∈ x, c.utf8Size = 1) (y : List Char) :
    takeBytes? x.length (x ++ y) = some (x, y) := by
  induction x with
  | nil => cases y <;> rw [List.nil_append, List.length_nil, takeBytes?]
  | cons c x ih =>
      have hc : c.utf8Size = 1 := hx c List.mem_cons_self
      have ih := ih fun d hd => hx d (List.mem_cons_of_mem c hd)
      have hfits : ¬ x.length + 1 < 1 := by omega
      rw [List.length_cons, List.cons_append, takeBytes?, hc, if_neg hfits,
        Nat.add_sub_cancel, ih]
      rfl

/-! ### The fields -/

/-- A cost in two digits consists of digits. -/
theorem isDigit_of_mem_twoDigits {n : Nat} {c : Char} (h : c ∈ twoDigits n) :
    c.isDigit = true := by
  rw [twoDigits] at h
  split at h
  · rcases List.mem_cons.mp h with rfl | h
    · rfl
    · exact Text.isDigit_of_mem_decimal h
  · exact Text.isDigit_of_mem_decimal h

theorem twoDigits_ne_nil (n : Nat) : twoDigits n ≠ [] := by
  rw [twoDigits]
  split
  · exact List.cons_ne_nil _ _
  · exact Text.decimal_ne_nil n

/-- A cost in two digits is read back. -/
theorem readBounded_twoDigits {bound n : Nat} (h : n ≤ bound) :
    Text.readBounded bound (twoDigits n) = some n := by
  rw [Text.readBounded_of_isDigit (twoDigits_ne_nil n) fun c => isDigit_of_mem_twoDigits,
    twoDigits]
  split
  · have hzero : Text.digitValue? '0' = some 0 := by decide
    have hbound : 0 * 10 + 0 ≤ bound := Nat.zero_le bound
    simp only [Text.readDigits, hzero, Option.bind_eq_bind, Option.bind_some, if_pos hbound]
    exact Text.readDigits_decimal h
  · exact Text.readDigits_decimal h

/-- The letters of a stored hash. -/
def letters (s : Stored) : List Char :=
  Text.Alphabet.dotted.encode s.salt.toList ++ Text.Alphabet.dotted.encode s.hash.toList

/-- The letters of some bytes take one byte each. -/
theorem utf8Size_of_mem_encode (bytes : List UInt8) :
    ∀ c ∈ Text.Alphabet.dotted.encode bytes, c.utf8Size = 1 :=
  Text.Alphabet.utf8Size_of_mem_encode Text.Alphabet.isProper_dotted (by decide) bytes

theorem length_encode_salt (s : Stored) :
    (Text.Alphabet.dotted.encode s.salt.toList).length = 22 := by
  rw [Text.Alphabet.length_encode, Vector.length_toList]

theorem length_encode_hash (s : Stored) :
    (Text.Alphabet.dotted.encode s.hash.toList).length = 31 := by
  rw [Text.Alphabet.length_encode, Vector.length_toList]

/-- The letters of a stored hash take 53 bytes. -/
theorem length_utf8Bytes_letters (s : Stored) : (Text.utf8Bytes (letters s)).length = 53 := by
  have hsize : ∀ c ∈ letters s, c.utf8Size = 1 := by
    intro c hc
    rcases List.mem_append.mp hc with hc | hc
    · exact utf8Size_of_mem_encode _ c hc
    · exact utf8Size_of_mem_encode _ c hc
  rw [Text.length_utf8Bytes hsize, letters, List.length_append, length_encode_salt,
    length_encode_hash]

/-- The letters of a stored hash are cut between the salt and the hash. -/
theorem takeBytes?_letters (s : Stored) :
    takeBytes? 22 (letters s) =
      some (Text.Alphabet.dotted.encode s.salt.toList,
        Text.Alphabet.dotted.encode s.hash.toList) := by
  have hcut := takeBytes?_append (utf8Size_of_mem_encode s.salt.toList)
    (Text.Alphabet.dotted.encode s.hash.toList)
  rwa [length_encode_salt] at hcut

/-- The letters of some bytes are read back as a vector of their number. -/
theorem decode?_bind_exactly? {n : Nat} (v : Vector UInt8 n) :
    (Text.Alphabet.dotted.decode? (Text.Alphabet.dotted.encode v.toList)).bind (exactly? n) =
      some v := by
  rw [Text.Alphabet.decode?_encode Text.Alphabet.isProper_dotted, Option.bind_some,
    exactly?_toList]

/-! ### The stored text -/

theorem dollar_notMem_letters (s : Stored) : '$' ∉ letters s := by
  have hdollar : '$' ∉ Text.Alphabet.dotted.letters := by decide
  rw [letters, List.mem_append]
  rintro (h | h)
  · exact Text.Alphabet.notMem_encode Text.Alphabet.isProper_dotted hdollar _ h
  · exact Text.Alphabet.notMem_encode Text.Alphabet.isProper_dotted hdollar _ h

/-- The parts of a stored text. -/
theorem toList_write (s : Stored) :
    (write s).toList = '$' :: '2' :: 'b' :: '$' :: (twoDigits s.cost ++ '$' :: letters s) :=
  String.toList_ofList

/-- A stored text has an empty field in front of its first dollar sign, and three more. -/
theorem splitOn_write (s : Stored) :
    Text.splitOn '$' (write s).toList = [[], ['2', 'b'], twoDigits s.cost, letters s] := by
  have hcost : '$' ∉ twoDigits s.cost := fun h =>
    absurd (isDigit_of_mem_twoDigits h) (by decide)
  have htext : (write s).toList =
      [] ++ '$' :: (['2', 'b'] ++ '$' :: (twoDigits s.cost ++ '$' :: letters s)) :=
    toList_write s
  rw [htext, Text.splitOn_append_cons List.not_mem_nil, Text.splitOn_append_cons (by decide),
    Text.splitOn_append_cons hcost, Text.splitOn_of_notMem (dollar_notMem_letters s)]

/-- **A hash whose cost is allowed is read back from its stored text.** -/
theorem read_write {s : Stored} (h : allowsCost s.cost = true) : read (write s) = .ok s := by
  have hletters : letters s ≠ [] := by
    intro hnil
    have hlength := length_utf8Bytes_letters s
    rw [hnil] at hlength
    cases hlength
  have hfields : [[], ['2', 'b'], twoDigits s.cost, letters s].filter (fun f => !f.isEmpty) =
      [['2', 'b'], twoDigits s.cost, letters s] := by
    simp [twoDigits_ne_nil, hletters]
  have hrevision : revisions.contains ['2', 'b'] = true := by decide
  have hcost : s.cost ≤ Text.maxWord32 := by
    simp only [allowsCost, Bool.and_eq_true, decide_eq_true_eq] at h
    exact Nat.le_trans h.2 (by decide)
  rw [read, splitOn_write, hfields]
  simp only [hrevision, Bool.not_true, Bool.false_eq_true, if_false,
    readBounded_twoDigits hcost, length_utf8Bytes_letters, ne_eq, not_true_eq_false,
    takeBytes?_letters, decode?_bind_exactly?, h]

/-- A text that is not malformed has three fields that are not empty, the first of them a
revision. Its cost may still be one that is not allowed. -/
theorem exists_revision_of_read {text : String} (h : read text ≠ .error .malformed) :
    ∃ revision cost letters,
      (Text.splitOn '$' text.toList).filter (fun f => !f.isEmpty) = [revision, cost, letters] ∧
        revision ∈ revisions := by
  rw [read] at h
  split at h
  · next revision cost letters hfields =>
      cases hrevision : revisions.contains revision with
      | true => exact ⟨revision, cost, letters, hfields, List.contains_iff_mem.mp hrevision⟩
      | false =>
          rw [hrevision] at h
          exact absurd rfl h
  · exact absurd rfl h

/-- The stored text of a hash is not empty. -/
theorem isEmpty_write (s : Stored) : (write s).isEmpty = false := by
  rw [String.isEmpty_eq_false_iff, ne_eq, ← String.toList_eq_nil_iff, toList_write]
  exact List.cons_ne_nil _ _

end RealmDirectory.Bcrypt
