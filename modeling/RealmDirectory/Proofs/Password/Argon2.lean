import RealmDirectory.Password.Argon2
import RealmDirectory.Proofs.Password.Phc

/-!
# Stored Argon2 hashes, read back

A new hash is written as a PHC string with all its fields, and the computation that its text
asks for is the one that it came from: the parameters name the cost, the version is the
current one, and the salt's letters stand for the bytes that were hashed. So the password
that was hashed is accepted, by every engine for the variant and whatever its own settings.

## Main results

* `Argon2Text.areFields_write`: the fields of a new hash may stand in a PHC string.
* `Argon2Text.request_write`: its text asks for the computation that it came from.
* `Argon2Text.accepts_write`: its text accepts the password.
-/

namespace RealmDirectory.Argon2Text

open Digest.Argon2 (Variant Version Cost)

/-! ### The cost -/

/-- A cost of which each part is a number of 32 bits. -/
structure IsWord (c : Cost) : Prop where
  memory : c.memory ≤ Text.maxWord32
  passes : c.passes ≤ Text.maxWord32
  lanes : c.lanes ≤ Text.maxWord32

/-- The cost of settings has 32 bits in each part. -/
theorem isWord_cost (s : Argon2Settings) : IsWord s.cost where
  memory := Nat.le_of_lt_succ s.memory.toNat_lt
  passes := Nat.le_of_lt_succ s.passes.toNat_lt
  lanes := Nat.le_of_lt_succ s.lanes.toNat_lt

/-- The parameters of a stored text that give its cost. -/
def costParameters (c : Cost) : List (List Char × List Char) :=
  [(['m'], Text.decimal c.memory), (['t'], Text.decimal c.passes),
    (['p'], Text.decimal c.lanes)]

variable {c : Cost}

/-- A letter in front of a number of 32 bits is a parameter. -/
theorem isParameter_decimal {letter : Char} (hletter : PhcString.isNameChar letter = true)
    {n : Nat} (h : n ≤ Text.maxWord32) :
    PhcString.IsParameter ([letter], Text.decimal n) where
  name := by
    refine ⟨List.cons_ne_nil _ _, Nat.succ_le_of_lt (by decide), fun d hd => ?_⟩
    rwa [List.mem_singleton.mp hd]
  value := PhcString.isValue_decimal h

theorem isParameter_of_mem_costParameters (h : IsWord c) :
    ∀ p ∈ costParameters c, PhcString.IsParameter p := by
  intro p hp
  simp only [costParameters, List.mem_cons, List.not_mem_nil, or_false] at hp
  rcases hp with rfl | rfl | rfl
  · exact isParameter_decimal rfl h.memory
  · exact isParameter_decimal rfl h.passes
  · exact isParameter_decimal rfl h.lanes

/-- The text of a cost has room among the parameters. -/
theorem byteLength_costParameters (h : IsWord c) :
    PhcString.byteLength (PhcString.parameterText (costParameters c)) ≤ 127 := by
  have hdigits {n : Nat} (hn : n ≤ Text.maxWord32) : (Text.decimal n).length ≤ 10 :=
    Text.length_decimal_le (by decide) (Nat.lt_of_le_of_lt hn (by decide))
  have hsize {n : Nat} (hn : n ≤ Text.maxWord32) : ∀ d ∈ Text.decimal n, d.utf8Size = 1 :=
    fun d hd =>
      PhcString.utf8Size_of_isValueChar ((PhcString.isValue_decimal hn).isValueChar d hd)
  have htext : PhcString.parameterText (costParameters c) =
      'm' :: '=' :: (Text.decimal c.memory ++ ',' :: 't' :: '=' :: (Text.decimal c.passes ++
        ',' :: 'p' :: '=' :: Text.decimal c.lanes)) := rfl
  have hbytes : ∀ d ∈ PhcString.parameterText (costParameters c), d.utf8Size = 1 := by
    intro d hd
    simp only [htext, List.mem_cons, List.mem_append] at hd
    rcases hd with rfl | rfl | hd | rfl | rfl | rfl | hd | rfl | rfl | rfl | hd
    case inr.inr.inl => exact hsize h.memory d hd
    case inr.inr.inr.inr.inr.inr.inl => exact hsize h.passes d hd
    case inr.inr.inr.inr.inr.inr.inr.inr.inr.inr => exact hsize h.lanes d hd
    all_goals rfl
  have hm := hdigits h.memory
  have ht := hdigits h.passes
  have hp := hdigits h.lanes
  rw [PhcString.byteLength, Text.length_utf8Bytes hbytes, htext]
  simp only [List.length_cons, List.length_append]
  omega

/-- **The parameters of a usable cost ask for this cost.** -/
theorem readParameters_costParameters (h : IsWord c) (hcheck : checkCost c = .ok ()) :
    readParameters (costParameters c) = .ok ⟨c, []⟩ := by
  have hm := PhcString.readDecimal_decimal h.memory
  have ht := PhcString.readDecimal_decimal h.passes
  have hp := PhcString.readDecimal_decimal h.lanes
  simp only [readParameters, costParameters, List.foldlM_cons, List.foldlM_nil, readParameter,
    Parameters.default, hm, ht, hp, bind, Except.bind, pure, Except.pure, hcheck]

/-! ### The stored text -/

variable {variant : Variant} {settings : Argon2Settings}

/-- The bytes of a new hash. -/
def newHash (variant : Variant) (settings : Argon2Settings) (salt : Vector UInt8 16)
    (password : List UInt8) : Vector UInt8 hashSize :=
  Digest.Argon2.hash variant .v19 settings.cost hashSize password salt.toList []

/-- The fields of a new hash. -/
def newFields (variant : Variant) (settings : Argon2Settings) (salt : Vector UInt8 16)
    (password : List UInt8) : PhcString :=
  ⟨algorithm variant, some Version.v19.number, costParameters settings.cost,
    some (Text.Alphabet.standard.encode salt.toList),
    some (newHash variant settings salt password).toList⟩

/-- The name of a variant may stand as a name. -/
theorem isName_algorithm (variant : Variant) : PhcString.IsName (algorithm variant) := by
  cases variant with
  | d | i | id => exact ⟨by decide, by decide, List.all_eq_true.mp (by decide)⟩

/-- **The fields of a new hash may stand in a PHC string.** -/
theorem areFields_write (variant : Variant) (settings : Argon2Settings)
    (salt : Vector UInt8 16) (password : List UInt8) :
    PhcString.AreFields (algorithm variant) Version.v19.number (costParameters settings.cost)
      (Text.Alphabet.standard.encode salt.toList)
      (newHash variant settings salt password).toList where
  isName := isName_algorithm variant
  version_le := by decide
  parameters_ne_nil := List.cons_ne_nil _ _
  isParameter := isParameter_of_mem_costParameters (isWord_cost settings)
  byteLength_le := byteLength_costParameters (isWord_cost settings)
  isValue_salt := PhcString.isValue_encode (by rw [Vector.length_toList]; decide)
  le_salt := by rw [Text.Alphabet.length_encode, Vector.length_toList]; decide
  le_hash := by rw [Vector.length_toList]; decide
  hash_le := by rw [Vector.length_toList]; decide

/-- The dollar signs of the text stand between the fields of a new hash. -/
theorem splitOn_write (variant : Variant) (settings : Argon2Settings)
    (salt : Vector UInt8 16) (password : List UInt8) :
    Text.splitOn '$' (write variant settings salt password).toList =
      [[], algorithm variant, 'v' :: '=' :: Text.decimal Version.v19.number,
        PhcString.parameterText (costParameters settings.cost),
        Text.Alphabet.standard.encode salt.toList,
        Text.Alphabet.standard.encode (newHash variant settings salt password).toList] :=
  PhcString.splitOn_render (areFields_write variant settings salt password)

/-- The fields of a new hash are read back from its text. -/
theorem parse_write (variant : Variant) (settings : Argon2Settings) (salt : Vector UInt8 16)
    (password : List UInt8) :
    PhcString.parse (write variant settings salt password) =
      .ok (newFields variant settings salt password) :=
  PhcString.parse_render (areFields_write variant settings salt password)

/-- The text of a new hash is not empty. -/
theorem isEmpty_write (variant : Variant) (settings : Argon2Settings)
    (salt : Vector UInt8 16) (password : List UInt8) :
    (write variant settings salt password).isEmpty = false :=
  PhcString.isEmpty_render (areFields_write variant settings salt password)

/-- The letters of a salt stand for the bytes that were hashed. -/
theorem readSalt_encode (salt : Vector UInt8 16) :
    readSalt (Text.Alphabet.standard.encode salt.toList) = .ok salt.toList := by
  have hbytes : PhcString.readBytes 64 (Text.Alphabet.standard.encode salt.toList) =
      .ok salt.toList :=
    PhcString.readBytes_encode (by rw [Vector.length_toList]; decide)
  have hshort : ¬ salt.toList.length < 8 := by
    rw [Vector.length_toList]
    decide
  simp only [readSalt, hbytes, bind, Except.bind, if_neg hshort]

/-- **The text of a new hash asks for the computation that it came from.** -/
theorem request_write (hcheck : settings.check = .ok ()) (salt : Vector UInt8 16)
    (password : List UInt8) :
    request (newFields variant settings salt password)
        (Text.Alphabet.standard.encode salt.toList) =
      .ok ⟨.v19, ⟨settings.cost, []⟩, salt.toList⟩ := by
  have hparameters := readParameters_costParameters (isWord_cost settings) hcheck
  have hversion : readVersion (some Version.v19.number) = .ok .v19 := rfl
  simp only [request, newFields, hparameters, hversion, readSalt_encode, bind, Except.bind]

/-- The bytes of a hash do not depend on how its size is written. -/
theorem toList_compute_congr (r : Request) (variant : Variant) (password : List UInt8)
    {n m : Nat} (h : n = m) :
    (r.compute variant n password).toList = (r.compute variant m password).toList := by
  rw [h]

/-- **The text of a new hash accepts the password that was hashed.** -/
theorem accepts_write (hcheck : settings.check = .ok ()) (salt : Vector UInt8 16)
    {password : List UInt8} (hlong : isTooLong password = false) :
    accepts variant (newFields variant settings salt password) password = .ok true := by
  have hlength : (newHash variant settings salt password).toList.length = hashSize :=
    Vector.length_toList
  have hcompute := toList_compute_congr ⟨.v19, ⟨settings.cost, []⟩, salt.toList⟩ variant
    password hlength
  have hsame : (Request.compute ⟨.v19, ⟨settings.cost, []⟩, salt.toList⟩ variant hashSize
      password).toList = (newHash variant settings salt password).toList := rfl
  have hrequest : request (newFields variant settings salt password)
      (Text.Alphabet.standard.encode salt.toList) =
        .ok ⟨.v19, ⟨settings.cost, []⟩, salt.toList⟩ := request_write hcheck salt password
  simp only [newFields] at hrequest
  simp only [accepts, newFields, hrequest, bind, Except.bind, hlong, hcompute, hsame,
    Bool.not_false, Bool.true_and, beq_self_eq_true]

end RealmDirectory.Argon2Text
