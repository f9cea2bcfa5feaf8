import Mathlib.Data.List.GetD
import Mathlib.Data.List.TakeWhile
import RealmDirectory.Proofs.Password.Engine

/-!
# Interchangeable passwords

Bcrypt reads a key around and around, for the eighteen words that it mixes into its tables each
time. So it knows only 72 bytes of a password with the zero behind it: the bytes of a longer
password behind them do not count, and a shorter one is the same as its repetition. Two passwords
that show the same 72 bytes have the same hash, and one is accepted where the other was stored.

## Main definitions

* `Bcrypt.keyStream`: the bytes of a password that count.

## Main results

* `Digest.Blowfish.passwordDigest_congr`: the words of a key that count.
* `Bcrypt.compute_eq_of_keyStream_eq`: passwords with one key stream have one hash.
* `Bcrypt.keyStream_eq_iff`, `Bcrypt.eq_of_keyStream_eq`: the passwords without zeros that have
  the same key stream.
* `Bcrypt.keyStream_repeat`: a password and its repetition have the same key stream.
* `HashEngine.verify_bcrypt_iff_keyStream`: which passwords are accepted for a stored one.
-/

namespace RealmDirectory

/-! ### Bytes of a text -/

/-- The bytes of an array in a list. -/
theorem Digest.toList_byteArray (b : ByteArray) : b.toList = b.data.toList := by
  have hloop (i : Nat) (r : List UInt8) :
      ByteArray.toList.loop b i r = r.reverse ++ b.data.toList.drop i := by
    fun_induction ByteArray.toList.loop b i r with
    | case1 i r hi ih =>
        have hlength : i < b.data.toList.length := hi
        have hbyte : b.get! i = b.data.toList[i] := by simp [ByteArray.get!, hi]
        rw [ih, hbyte, List.drop_eq_getElem_cons hlength, List.reverse_cons, List.append_assoc]
        rfl
    | case2 i r hi =>
        rw [List.drop_eq_nil_of_le (Nat.le_of_not_lt hi), List.append_nil]
  exact hloop 0 []

/-- The bytes of two texts behind each other. -/
theorem Digest.utf8_append (s t : String) : utf8 (s ++ t) = utf8 s ++ utf8 t := by
  simp only [utf8, toList_byteArray, String.toUTF8, String.toByteArray_append,
    ByteArray.data_append, Array.toList_append]

/-- Texts are told apart by their bytes. -/
theorem Digest.utf8_inj {s t : String} (h : utf8 s = utf8 t) : s = t := by
  simp only [utf8, toList_byteArray, String.toUTF8, Array.toList_inj] at h
  exact String.toByteArray_inj.mp (ByteArray.ext h)

namespace Digest.Blowfish

/-! ### The words of a key -/

/-- Enciphering replaces round words and makes no new ones. -/
theorem Refill.size_nextRounds (salt : Array UInt32) (s : Refill) (i : Nat) :
    (s.nextRounds salt i).rounds.size = s.rounds.size := by
  simp only [nextRounds, Array.size_setIfInBounds]

theorem Refill.size_nextBoxes (salt : Array UInt32) (s : Refill) (i : Nat) :
    (s.nextBoxes salt i).rounds.size = s.rounds.size :=
  rfl

/-- Steps that keep the number of round words keep it together. -/
theorem Refill.size_fold {next : Refill → Nat → Refill}
    (h : ∀ s i, (next s i).rounds.size = s.rounds.size) (n : Nat) (s : Refill) :
    (Nat.fold n (fun i _ s => next s i) s).rounds.size = s.rounds.size := by
  induction n with
  | zero => rfl
  | succ n ih => rw [Nat.fold_succ, h, ih]

theorem Tables.size_expand (salt : Array UInt32) (key : ByteArray) (t : Tables) :
    (t.expand salt key).rounds.size = t.rounds.size := by
  simp only [expand]
  rw [Refill.size_fold (Refill.size_nextBoxes salt), Refill.size_fold (Refill.size_nextRounds salt),
    Array.size_mapIdx]

theorem Tables.size_initial : Tables.initial.rounds.size = 18 := by
  have hpi : (piWords (18 + 1024)).size = 18 + 1024 := Array.size_ofFn
  rw [initial, Array.size_extract, hpi]
  rfl

variable {key other : ByteArray}

/-- **Two keys are mixed in alike** when they have the same first eighteen words. -/
theorem Tables.expand_congr (h : ∀ i < 18, cyclicWord key i = cyclicWord other i)
    (salt : Array UInt32) {t : Tables} (ht : t.rounds.size = 18) :
    t.expand salt key = t.expand salt other := by
  have hkeyed : t.rounds.mapIdx (fun i x => x ^^^ cyclicWord key i) =
      t.rounds.mapIdx fun i x => x ^^^ cyclicWord other i := by
    refine Array.ext (by simp only [Array.size_mapIdx]) fun i hi _ => ?_
    rw [Array.size_mapIdx, ht] at hi
    simp only [Array.getElem_mapIdx, h i hi]
  simp only [expand, hkeyed]

theorem Tables.repeatKeys_congr (h : ∀ i < 18, cyclicWord key i = cyclicWord other i)
    (salt : ByteArray) (n : Nat) {t : Tables} (ht : t.rounds.size = 18) :
    t.repeatKeys key salt n = t.repeatKeys other salt n := by
  induction n generalizing t with
  | zero => rfl
  | succ n ih =>
      rw [repeatKeys, repeatKeys, expand_congr h #[] ht]
      exact ih (by rw [size_expand, size_expand, ht])

/-- The enciphered text under some tables. -/
def Tables.digest (t : Tables) : Vector UInt8 23 :=
  let text := magic.toByteArray
  let word (i : Nat) : UInt32 := word32Big text (4 * i)
  let a := t.encipherTimes 64 (word 0, word 1)
  let b := t.encipherTimes 64 (word 2, word 3)
  let c := t.encipherTimes 64 (word 4, word 5)
  bytes32Big #v[a.1, a.2, b.1, b.2, c.1, c.2] 23

/-- The tables with a key and a salt mixed in, once together and then again and again. -/
def Tables.mix (cost : Nat) (salt : Vector UInt8 16) (key : ByteArray) (t : Tables) : Tables :=
  let words := Array.ofFn fun i : Fin 4 => cyclicWord ⟨salt.toArray⟩ i.val
  (t.expand words key).repeatKeys key ⟨salt.toArray⟩ (Nat.pow 2 cost)

/-- A digest has nothing of the key but the tables. -/
theorem passwordDigest_eq (cost : Nat) (salt : Vector UInt8 16) (key : List UInt8) :
    passwordDigest cost salt key = (Tables.initial.mix cost salt key.toByteArray).digest :=
  rfl

theorem Tables.mix_congr (h : ∀ i < 18, cyclicWord key i = cyclicWord other i) (cost : Nat)
    (salt : Vector UInt8 16) {t : Tables} (ht : t.rounds.size = 18) :
    t.mix cost salt key = t.mix cost salt other := by
  simp only [mix]
  rw [expand_congr h _ ht]
  exact repeatKeys_congr h _ _ (by rw [size_expand, ht])

/-- **The words of a key that count** for its digest are the first eighteen. -/
theorem passwordDigest_congr {key other : List UInt8}
    (h : ∀ i < 18, cyclicWord key.toByteArray i = cyclicWord other.toByteArray i)
    (cost : Nat) (salt : Vector UInt8 16) :
    passwordDigest cost salt key = passwordDigest cost salt other := by
  rw [passwordDigest_eq, passwordDigest_eq, Tables.mix_congr h cost salt Tables.size_initial]

end Digest.Blowfish

namespace Bcrypt

/-! ### Key streams -/

/-- The bytes of a password that count: with a zero behind it, it is read around and around. -/
def keyStream (password : String) : List UInt8 :=
  let bytes := Digest.utf8 password ++ [0]
  (List.range 72).map fun i => bytes.getD (i % bytes.length) 0

theorem length_keyStream (password : String) : (keyStream password).length = 72 := by
  rw [keyStream, List.length_map, List.length_range]

theorem getElem?_keyStream (password : String) {i : Nat} (hi : i < 72) :
    (keyStream password)[i]? =
      some ((Digest.utf8 password ++ [0]).getD
        (i % (Digest.utf8 password ++ [0]).length) 0) := by
  rw [keyStream, List.getElem?_map, List.getElem?_range hi]
  rfl

/-- A byte of a cut text that is read around and around is one of the whole text. -/
theorem getD_take_mod (bytes : List UInt8) {i : Nat} (hi : i < 72) :
    (bytes.take 72).getD (i % (bytes.take 72).length) 0 = bytes.getD (i % bytes.length) 0 := by
  rcases Nat.lt_or_ge bytes.length 72 with hshort | hlong
  · rw [List.take_of_length_le (Nat.le_of_lt hshort)]
  · rw [List.length_take_of_le hlong, Nat.mod_eq_of_lt hi,
      Nat.mod_eq_of_lt (Nat.lt_of_lt_of_le hi hlong), List.getD_eq_getElem?_getD,
      List.getElem?_take_of_lt hi, ← List.getD_eq_getElem?_getD]

/-- A byte of a list that is put into an array. -/
theorem byteAt_toByteArray (bytes : List UInt8) (i : Nat) :
    Digest.byteAt bytes.toByteArray i = bytes.getD i 0 := by
  by_cases hi : i < bytes.length
  · have hsize : i < bytes.toByteArray.size := by rwa [List.size_toByteArray]
    rw [Digest.byteAt, dif_pos hsize, List.getD_eq_getElem _ _ hi]
    simp only [ByteArray.getElem_eq_getElem_data, List.data_toByteArray, List.getElem_toArray]
  · have hsize : ¬ i < bytes.toByteArray.size := by rwa [List.size_toByteArray]
    rw [Digest.byteAt, dif_neg hsize, List.getD_eq_default _ _ (Nat.le_of_not_lt hi)]

/-- A key stream is the key, read around and around. -/
theorem keyStream_eq_map_key (password : String) :
    keyStream password =
      (List.range 72).map fun i => (key password).getD (i % (key password).length) 0 :=
  List.map_congr_left fun _ hi => (getD_take_mod _ (List.mem_range.mp hi)).symm

/-- A byte of the key of a password that is read around and around. -/
theorem byteAt_key (password : String) {i : Nat} (hi : i < 72) :
    (keyStream password)[i]? =
      some (Digest.byteAt (key password).toByteArray (i % (key password).toByteArray.size)) := by
  rw [keyStream_eq_map_key, List.getElem?_map, List.getElem?_range hi, byteAt_toByteArray,
    List.size_toByteArray]
  rfl

/-- **Passwords with one key stream have one hash.** -/
theorem compute_eq_of_keyStream_eq {p q : String} (h : keyStream p = keyStream q) (cost : Nat)
    (salt : Vector UInt8 16) : compute cost salt p = compute cost salt q := by
  refine Digest.Blowfish.passwordDigest_congr (fun i hi => ?_) cost salt
  have hbyte {j : Nat} (hj : j < 72) :
      Digest.byteAt (key p).toByteArray (j % (key p).toByteArray.size) =
        Digest.byteAt (key q).toByteArray (j % (key q).toByteArray.size) := by
    rw [← Option.some_inj, ← byteAt_key p hj, ← byteAt_key q hj, h]
  have hword {k : Nat} (hk : k < 4) : 4 * i + k < 72 := by omega
  simp only [Digest.Blowfish.cyclicWord, hbyte (hword (by decide : 0 < 4)),
    hbyte (hword (by decide : 1 < 4)), hbyte (hword (by decide : 2 < 4)),
    hbyte (hword (by decide : 3 < 4))]

/-! ### Passwords with one key stream -/

/-- Only the first 72 bytes of a password are in its key. -/
theorem key_eq_of_take_eq {p q : String}
    (h : (Digest.utf8 p).take 72 = (Digest.utf8 q).take 72) : key p = key q := by
  have hcut (s : String) : key s = (((Digest.utf8 s).take 72) ++ [0]).take 72 := by
    have hrest : 72 - (Digest.utf8 s).length = 72 - min 72 (Digest.utf8 s).length := by omega
    rw [key, List.take_append, List.take_append, List.take_take, List.length_take, Nat.min_self,
      hrest]
  rw [hcut p, hcut q, h]

/-- The key stream begins with the key. -/
theorem key_isPrefix_keyStream (password : String) : key password <+: keyStream password := by
  refine List.prefix_iff_getElem?.mpr fun i hi => ?_
  obtain ⟨hcut, hlength⟩ : i < 72 ∧ i < (Digest.utf8 password ++ [0]).length := by
    rwa [key, List.length_take, Nat.lt_min] at hi
  rw [getElem?_keyStream password hcut, Nat.mod_eq_of_lt hlength, List.getD_eq_getElem _ _ hlength]
  simp only [key, List.getElem_take]

/-- What stands in front of the first zero of a key stream. -/
theorem takeWhile_keyStream {password : String} (h : 0 ∉ Digest.utf8 password) :
    (keyStream password).takeWhile (· ≠ 0) = (Digest.utf8 password).take 72 := by
  obtain ⟨tail, htail⟩ := key_isPrefix_keyStream password
  have hnonzero {bytes : List UInt8} (hbytes : bytes ⊆ Digest.utf8 password) :
      ∀ b ∈ bytes, decide (b ≠ 0) = true := fun b hb =>
    decide_eq_true (ne_of_mem_of_not_mem (hbytes hb) h)
  rcases Nat.lt_or_ge (Digest.utf8 password).length 72 with hshort | hlong
  · have hkey : key password = Digest.utf8 password ++ [0] :=
      List.take_of_length_le (by simpa using Nat.succ_le_of_lt hshort)
    rw [← htail, hkey, List.append_assoc,
      List.takeWhile_append_of_pos (hnonzero (List.Subset.refl _)),
      List.take_of_length_le (Nat.le_of_lt hshort)]
    simp
  · have hkey : key password = (Digest.utf8 password).take 72 :=
      List.take_append_of_le_length hlong
    have hnone : tail = [] := by
      have hlength := congrArg List.length htail
      rw [length_keyStream, List.length_append, hkey, List.length_take_of_le hlong] at hlength
      exact List.eq_nil_of_length_eq_zero (by omega)
    rw [← htail, hnone, List.append_nil, hkey]
    exact List.takeWhile_eq_self_iff.mpr (hnonzero (List.take_subset 72 _))

/-- **The passwords without zeros that have the same key stream** are those with the same first
72 bytes. -/
theorem keyStream_eq_iff {p q : String} (hp : 0 ∉ Digest.utf8 p) (hq : 0 ∉ Digest.utf8 q) :
    keyStream p = keyStream q ↔ (Digest.utf8 p).take 72 = (Digest.utf8 q).take 72 := by
  constructor
  · intro h
    rw [← takeWhile_keyStream hp, ← takeWhile_keyStream hq, h]
  · intro h
    rw [keyStream_eq_map_key, keyStream_eq_map_key, key_eq_of_take_eq h]

/-- **Among the passwords without zeros**, one of less than 72 bytes is alone with its key
stream. -/
theorem eq_of_keyStream_eq {p q : String} (hp : 0 ∉ Digest.utf8 p) (hq : 0 ∉ Digest.utf8 q)
    (hlength : (Digest.utf8 q).length < 72) (h : keyStream p = keyStream q) : p = q := by
  have hcut := (keyStream_eq_iff hp hq).mp h
  rw [List.take_of_length_le (Nat.le_of_lt hlength)] at hcut
  have hshort : (Digest.utf8 p).length < 72 := by
    have hcount := congrArg List.length hcut
    rw [List.length_take] at hcount
    omega
  rw [List.take_of_length_le (Nat.le_of_lt hshort)] at hcut
  exact Digest.utf8_inj hcut

/-- A text that is repeated once is the same text when it is read around and around. -/
theorem getD_append_self_mod (bytes : List UInt8) (hbytes : bytes ≠ []) (i : Nat) :
    (bytes ++ bytes).getD (i % (bytes ++ bytes).length) 0 = bytes.getD (i % bytes.length) 0 := by
  have hpos : 0 < bytes.length := List.length_pos_iff.mpr hbytes
  let j := i % (bytes ++ bytes).length
  have hlength : (bytes ++ bytes).length = 2 * bytes.length := by
    rw [List.length_append, Nat.two_mul]
  have hj : j < 2 * bytes.length := hlength ▸ Nat.mod_lt i (by omega)
  have hmod : i % bytes.length = j % bytes.length := by
    rw [Nat.mod_mod_of_dvd i (hlength ▸ Nat.dvd_mul_left bytes.length 2)]
  rw [hmod]
  rcases Nat.lt_or_ge j bytes.length with hfirst | hsecond
  · rw [List.getD_append _ _ _ _ hfirst, Nat.mod_eq_of_lt hfirst]
  · rw [List.getD_append_right _ _ _ _ hsecond, Nat.mod_eq_sub_mod hsecond,
      Nat.mod_eq_of_lt (by omega)]

/-- **A password has the key stream of its repetition** behind a zero. -/
theorem keyStream_repeat (password : String) :
    keyStream (password ++ "\x00" ++ password) = keyStream password := by
  have hzero : Digest.utf8 "\x00" = [0] := by decide +kernel
  have hbytes : Digest.utf8 (password ++ "\x00" ++ password) ++ [0] =
      (Digest.utf8 password ++ [0]) ++ (Digest.utf8 password ++ [0]) := by
    rw [Digest.utf8_append, Digest.utf8_append, hzero, List.append_assoc, List.append_assoc]
  simp only [keyStream, hbytes]
  exact List.map_congr_left fun i _ => getD_append_self_mod _ (by simp) i

end Bcrypt

/-! ### What an engine accepts -/

namespace HashEngine

/-- **Which passwords are accepted for a stored one.** An engine for bcrypt with an accepted cost
hashes every password, and accepts every password with the same key stream for it. When the
hashes of two passwords tell their key streams apart, no other one is accepted. Passwords without
zeros have the same key stream exactly when their first 72 bytes are the same, so that a shorter
one is told from all the others; but no password is the only one with its key stream. -/
theorem verify_bcrypt_iff_keyStream {e : HashEngine} (halgorithm : e.algorithm = .bcrypt)
    (hcheck : e.check = .ok ()) (salt : Salt) (p q : String) :
    (∃ stored, e.hash salt p = .ok stored ∧
      (Bcrypt.keyStream q = Bcrypt.keyStream p → e.verify stored q = .ok true) ∧
      ((Bcrypt.compute e.bcryptCost salt q = Bcrypt.compute e.bcryptCost salt p →
          Bcrypt.keyStream q = Bcrypt.keyStream p) →
        (e.verify stored q = .ok false ↔ Bcrypt.keyStream q ≠ Bcrypt.keyStream p))) ∧
      (0 ∉ Digest.utf8 q → 0 ∉ Digest.utf8 p →
        (Bcrypt.keyStream q = Bcrypt.keyStream p ↔
          (Digest.utf8 q).take 72 = (Digest.utf8 p).take 72) ∧
        ((Digest.utf8 p).length < 72 → Bcrypt.keyStream q = Bcrypt.keyStream p → q = p)) ∧
      p ++ "\x00" ++ p ≠ p ∧ Bcrypt.keyStream (p ++ "\x00" ++ p) = Bcrypt.keyStream p := by
  let stored := Bcrypt.write ⟨e.bcryptCost, salt, Bcrypt.compute e.bcryptCost salt p⟩
  have hstored : e.hash salt p = .ok stored := by
    simp only [hash, hcheck, halgorithm, bind, Except.bind]
    rfl
  have hverify : e.verify stored q =
      .ok (decide (Bcrypt.compute e.bcryptCost salt q = Bcrypt.compute e.bcryptCost salt p)) := by
    simp only [verify, hcheck, halgorithm, bind, Except.bind]
    exact verifyBcrypt_write_eq (allowsCost_of_check halgorithm hcheck) salt p q
  refine ⟨⟨stored, hstored, fun hsame => ?_, fun hcore => ?_⟩,
    fun hq hp => ⟨Bcrypt.keyStream_eq_iff hq hp, Bcrypt.eq_of_keyStream_eq hq hp⟩,
    fun heq => ?_, Bcrypt.keyStream_repeat p⟩
  · rw [hverify, Bcrypt.compute_eq_of_keyStream_eq hsame, decide_eq_true rfl]
  · rw [hverify, Except.ok.injEq, decide_eq_false_iff_not]
    exact ⟨mt fun hsame => Bcrypt.compute_eq_of_keyStream_eq hsame _ _, mt hcore⟩
  · have hlength := congrArg (fun s => s.toList.length) heq
    simp at hlength

/-- A password of 72 letters is stored, and the same letters with one more behind them are
accepted for it. -/
theorem verify_bcrypt_iff_keyStream_long :
    let e : HashEngine := { algorithm := .bcrypt, bcryptCost := 4 }
    let salt : Salt := Vector.replicate 16 7
    let p := String.ofList (List.replicate 72 'a')
    let q := p ++ "b"
    e.algorithm = .bcrypt ∧ e.check = .ok () ∧ q ≠ p ∧
      ∃ stored, e.hash salt p = .ok stored ∧ e.verify stored q = .ok true := by
  intro e salt p q
  have hp : 0 ∉ Digest.utf8 p := by decide +kernel
  have hq : 0 ∉ Digest.utf8 q := by decide +kernel
  obtain ⟨⟨stored, hstored, haccepted, -⟩, hsame, -⟩ :=
    verify_bcrypt_iff_keyStream (e := e) rfl rfl salt p q
  have hstream := (hsame hq hp).1.mpr (by decide +kernel)
  exact ⟨rfl, rfl, by decide +kernel, stored, hstored, haccepted hstream⟩

end HashEngine

end RealmDirectory
