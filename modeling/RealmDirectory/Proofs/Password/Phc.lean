import RealmDirectory.Password.Phc
import RealmDirectory.Proofs.Text.Base64
import RealmDirectory.Proofs.Text.Decimal
import RealmDirectory.Proofs.Text.Splitting
import RealmDirectory.Proofs.Text.Steps

/-!
# PHC strings, read back

The text of a PHC string that has all its fields is read back. Its dollar signs stand only
between fields, its commas only between parameters and its equals signs only behind names,
because names and values are made of letters, digits and few other characters, each of one
byte.

## Main definitions

* `PhcString.IsName`, `PhcString.IsValue`: what may stand as a name, and as a value.
* `PhcString.AreFields`: what may stand in a PHC string that has all its fields.

## Main results

* `PhcString.readParameters_parameterText`: a list of parameters is read back.
* `PhcString.parse_render`: a PHC string with all its fields is read back.
* `PhcString.exists_rest_of_parse`: what can be read has the name of an algorithm in front.
-/

namespace RealmDirectory.PhcString

/-! ### Names and values -/

/-- A text that may stand as a name. -/
structure IsName (s : List Char) : Prop where
  ne_nil : s ≠ []
  length_le : s.length ≤ 32
  isNameChar : ∀ c ∈ s, isNameChar c = true

/-- A text that may stand as a value. -/
structure IsValue (s : List Char) : Prop where
  length_le : s.length ≤ 64
  isValueChar : ∀ c ∈ s, isValueChar c = true

/-- A letter or a digit takes one byte. -/
theorem utf8Size_of_le {c : Char} (h : c.val ≤ 127) : c.utf8Size = 1 :=
  Char.utf8Size_eq_one_iff.mpr h

theorem val_le_of_isAlphanum {c : Char} (h : c.isAlphanum = true) : c.val ≤ 127 := by
  have hranges : (decide (c.val ≥ 'A'.val ∧ c.val ≤ 'Z'.val) ||
      (decide (c.val ≥ 'a'.val) && decide (c.val ≤ 'z'.val)) ||
      (decide (c.val ≥ '0'.val) && decide (c.val ≤ '9'.val))) = true := h
  simp only [Bool.or_eq_true, Bool.and_eq_true, decide_eq_true_eq,
    UInt32.le_iff_toNat_le] at hranges ⊢
  have hupper : 'Z'.val.toNat ≤ (127 : UInt32).toNat := by decide
  have hlower : 'z'.val.toNat ≤ (127 : UInt32).toNat := by decide
  have hdigit : '9'.val.toNat ≤ (127 : UInt32).toNat := by decide
  rcases hranges with (hrange | hrange) | hrange <;> omega

theorem isAlphanum_of_isLower {c : Char} (h : c.isLower = true) : c.isAlphanum = true :=
  Bool.or_eq_true_iff.mpr (Or.inl (Bool.or_eq_true_iff.mpr (Or.inr h)))

theorem isAlphanum_of_isDigit {c : Char} (h : c.isDigit = true) : c.isAlphanum = true :=
  Bool.or_eq_true_iff.mpr (Or.inr h)

/-- A character of a value takes one byte. -/
theorem utf8Size_of_isValueChar {c : Char} (h : isValueChar c = true) : c.utf8Size = 1 := by
  simp only [isValueChar, Bool.or_eq_true, beq_iff_eq] at h
  rcases h with (((h | rfl) | rfl) | rfl) | rfl
  · exact utf8Size_of_le (val_le_of_isAlphanum h)
  all_goals rfl

/-- A character of a name takes one byte. -/
theorem utf8Size_of_isNameChar {c : Char} (h : isNameChar c = true) : c.utf8Size = 1 := by
  simp only [isNameChar, Bool.or_eq_true, beq_iff_eq] at h
  rcases h with (h | h) | rfl
  · exact utf8Size_of_le (val_le_of_isAlphanum (isAlphanum_of_isLower h))
  · exact utf8Size_of_le (val_le_of_isAlphanum (isAlphanum_of_isDigit h))
  · rfl

variable {s : List Char}

theorem IsName.byteLength_eq (h : IsName s) : byteLength s = s.length :=
  Text.length_utf8Bytes fun c hc => utf8Size_of_isNameChar (h.isNameChar c hc)

theorem IsValue.byteLength_eq (h : IsValue s) : byteLength s = s.length :=
  Text.length_utf8Bytes fun c hc => utf8Size_of_isValueChar (h.isValueChar c hc)

/-- A character that stands in no name. -/
theorem IsName.notMem (h : IsName s) {c : Char} (hc : PhcString.isNameChar c = false) :
    c ∉ s := by
  intro hmem
  rw [h.isNameChar c hmem] at hc
  cases hc

/-- A character that stands in no value. -/
theorem IsValue.notMem (h : IsValue s) {c : Char} (hc : PhcString.isValueChar c = false) :
    c ∉ s := by
  intro hmem
  rw [h.isValueChar c hmem] at hc
  cases hc

/-- No character of a value is refused. -/
theorem IsValue.find?_eq_none (h : IsValue s) :
    (s.find? fun c => !PhcString.isValueChar c) = none := by
  rw [List.find?_eq_none]
  intro c hc
  simp [h.isValueChar c hc]

theorem readName_eq (h : IsName s) : readName s = .ok s := by
  have hempty : s.isEmpty = false := List.isEmpty_eq_false_iff.mpr h.ne_nil
  have hlong : ¬ 32 < byteLength s := by
    rw [h.byteLength_eq]
    exact Nat.not_lt.mpr h.length_le
  have hall : s.all PhcString.isNameChar = true := List.all_eq_true.mpr h.isNameChar
  simp [readName, hempty, hlong, hall]

/-- A name that can be read is the text itself. -/
theorem eq_of_readName {name : List Char} (h : readName s = .ok name) : name = s := by
  rw [readName] at h
  split at h
  · cases h
  · exact (Except.ok.inj h).symm

theorem readValue_eq (h : IsValue s) : readValue s = .ok s := by
  have hlong : ¬ 64 < byteLength s := by
    rw [h.byteLength_eq]
    exact Nat.not_lt.mpr h.length_le
  simp only [readValue, if_neg hlong, h.find?_eq_none]

/-- A value of at least four characters may stand as a salt. -/
theorem readSalt_eq (h : IsValue s) (hlength : 4 ≤ s.length) : readSalt s = .ok s := by
  have hshort : ¬ byteLength s < 4 := by
    rw [h.byteLength_eq]
    exact Nat.not_lt.mpr hlength
  have hlong : ¬ 64 < byteLength s := by
    rw [h.byteLength_eq]
    exact Nat.not_lt.mpr h.length_le
  simp only [readSalt, if_neg hshort, if_neg hlong, h.find?_eq_none]

/-- A decimal of 32 bits may stand as a value. -/
theorem isValue_decimal {n : Nat} (h : n ≤ Text.maxWord32) : IsValue (Text.decimal n) where
  length_le := by
    have hlength : (Text.decimal n).length ≤ 10 :=
      Text.length_decimal_le (by decide) (Nat.lt_of_le_of_lt h (by decide))
    exact Nat.le_trans hlength (by decide)
  isValueChar := by
    intro c hc
    simp [PhcString.isValueChar, isAlphanum_of_isDigit (Text.isDigit_of_mem_decimal hc)]

/-- A decimal is read back as a value. -/
theorem readDecimal_decimal {n : Nat} (h : n ≤ Text.maxWord32) :
    readDecimal (Text.decimal n) = .ok n := by
  obtain ⟨d, r, hdr⟩ := List.exists_cons_of_ne_nil (Text.decimal_ne_nil n)
  have hdigits : ((d :: r).find? fun c => !c.isDigit) = none := by
    rw [List.find?_eq_none]
    intro c hc
    simp [Text.isDigit_of_mem_decimal (hdr ▸ hc)]
  have hzero : ¬ (d = '0' ∧ r ≠ []) := by
    rintro ⟨rfl, hr⟩
    exact hr (Text.tail_eq_nil_of_decimal hdr)
  have hread := Text.readDigits_decimal h
  rw [hdr] at hread ⊢
  simp only [readDecimal, hdigits, if_neg hzero, hread]

/-! ### Letters of bytes -/

/-- The letters of some bytes may stand as a value. -/
theorem isValue_encode {bytes : List UInt8} (h : bytes.length ≤ 48) :
    IsValue (Text.Alphabet.standard.encode bytes) where
  length_le := by
    rw [Text.Alphabet.length_encode]
    omega
  isValueChar := Text.Alphabet.forall_mem_encode Text.Alphabet.isProper_standard
    (List.all_eq_true.mp (by decide)) bytes

/-- The letters of some bytes take one byte each. -/
theorem byteLength_encode (bytes : List UInt8) :
    byteLength (Text.Alphabet.standard.encode bytes) =
      (Text.Alphabet.standard.encode bytes).length :=
  Text.length_utf8Bytes
    (Text.Alphabet.utf8Size_of_mem_encode Text.Alphabet.isProper_standard (by decide) bytes)

/-- Bytes are read back from their letters, up to a bound. -/
theorem readBytes_encode {bound : Nat} {bytes : List UInt8} (h : bytes.length ≤ bound) :
    readBytes bound (Text.Alphabet.standard.encode bytes) = .ok bytes := by
  have hbound : ¬ bound <
      Text.Alphabet.decodedLength (byteLength (Text.Alphabet.standard.encode bytes)) := by
    rw [byteLength_encode, Text.Alphabet.decodedLength_length_encode]
    exact Nat.not_lt.mpr h
  rw [readBytes, if_neg hbound, Text.Alphabet.decode?_encode Text.Alphabet.isProper_standard]

/-- A hash is read back from its letters. -/
theorem readHash_encode {bytes : List UInt8} (hmin : 10 ≤ bytes.length)
    (hmax : bytes.length ≤ 64) :
    readHash (Text.Alphabet.standard.encode bytes) = .ok bytes := by
  have hshort : ¬ bytes.length < 10 := Nat.not_lt.mpr hmin
  rw [readHash, readBytes_encode hmax]
  exact if_neg hshort

/-! ### Parameters -/

/-- A parameter whose name and value may stand as such. -/
structure IsParameter (p : List Char × List Char) : Prop where
  name : IsName p.1
  value : IsValue p.2

/-- A parameter is read back. -/
theorem readParameter_renderParameter {p : List Char × List Char} (h : IsParameter p) :
    readParameter (renderParameter p) = .ok p := by
  have hname : '=' ∉ p.1 := h.name.notMem rfl
  have hvalue : '=' ∉ p.2 := h.value.notMem rfl
  rw [readParameter, renderParameter, Text.splitOn_append_cons hname,
    Text.splitOn_of_notMem hvalue]
  simp only [readName_eq h.name, readValue_eq h.value, List.isEmpty_nil, if_true]
  rfl

/-- A character that stands in no name and in no value stands in a parameter only when it is
the equals sign. -/
theorem notMem_renderParameter {p : List Char × List Char} (h : IsParameter p) {c : Char}
    (hname : isNameChar c = false) (hvalue : isValueChar c = false) (heq : c ≠ '=') :
    c ∉ renderParameter p := by
  rw [renderParameter, List.mem_append, List.mem_cons]
  rintro (hc | hc | hc)
  · exact h.name.notMem hname hc
  · exact heq hc
  · exact h.value.notMem hvalue hc

/-- A character of a joined list is the comma or stands in one of the texts. -/
theorem notMem_joinCommas {c : Char} (hc : c ≠ ',') {l : List (List Char)}
    (h : ∀ s ∈ l, c ∉ s) : c ∉ joinCommas l := by
  induction l using joinCommas.induct with
  | case1 => exact List.not_mem_nil
  | case2 s => exact h s List.mem_cons_self
  | case3 s r _ ih =>
      rw [joinCommas, List.mem_append, List.mem_cons]
      · rintro (hs | hs | hs)
        · exact h s List.mem_cons_self hs
        · exact hc hs
        · exact ih (fun t ht => h t (List.mem_cons_of_mem s ht)) hs
      · assumption

/-- Texts without commas are split again where they were joined. -/
theorem splitOn_joinCommas {l : List (List Char)} (hne : l ≠ []) (h : ∀ s ∈ l, ',' ∉ s) :
    Text.splitOn ',' (joinCommas l) = l := by
  induction l using joinCommas.induct with
  | case1 => exact absurd rfl hne
  | case2 s => exact Text.splitOn_of_notMem (h s List.mem_cons_self)
  | case3 s r hr ih =>
      have hrest := ih hr fun t ht => h t (List.mem_cons_of_mem s ht)
      rw [joinCommas, Text.splitOn_append_cons (h s List.mem_cons_self), hrest]
      assumption

/-- The text of a list of parameters. -/
def parameterText (l : List (List Char × List Char)) : List Char :=
  joinCommas (l.map renderParameter)

/-- Parameters that are split already are read back one by one. -/
theorem mapM_readParameter {l : List (List Char × List Char)} (h : ∀ p ∈ l, IsParameter p) :
    (l.map renderParameter).mapM readParameter = .ok l :=
  mapM_map_eq_pure fun p hp => readParameter_renderParameter (h p hp)

/-- **A list of parameters is read back**, when its text is not too long. -/
theorem readParameters_parameterText {l : List (List Char × List Char)} (hne : l ≠ [])
    (h : ∀ p ∈ l, IsParameter p) (hlength : byteLength (parameterText l) ≤ 127) :
    readParameters (parameterText l) = .ok l := by
  have hcomma : ∀ s ∈ l.map renderParameter, ',' ∉ s := by
    intro s hs
    obtain ⟨p, hp, rfl⟩ := List.mem_map.mp hs
    exact notMem_renderParameter (h p hp) rfl rfl (by decide)
  have hnil : l.map renderParameter ≠ [] := fun hmap => hne (List.map_eq_nil_iff.mp hmap)
  rw [readParameters, if_neg (Nat.not_lt.mpr hlength), parameterText,
    splitOn_joinCommas hnil hcomma, mapM_readParameter h]

/-- The text of a list of parameters has an equals sign. -/
theorem equals_mem_parameterText {l : List (List Char × List Char)} (hne : l ≠ []) :
    '=' ∈ parameterText l := by
  match l, hne with
  | [p], _ => simp [parameterText, joinCommas, renderParameter]
  | p :: q :: r, _ => simp [parameterText, joinCommas, renderParameter]

/-! ### Whole texts -/

/-- A version at the front of some fields is read back. -/
theorem takeVersion_decimal {n : Nat} (h : n ≤ Text.maxWord32) (rest : List (List Char)) :
    takeVersion (('v' :: '=' :: Text.decimal n) :: rest) = .ok (some n, rest) := by
  have hcomma : (Text.decimal n).contains ',' = false := by
    simpa using Text.notMem_decimal (c := ',') rfl n
  simp only [takeVersion, hcomma, Bool.false_eq_true, if_false, bind, Except.bind,
    readValue_eq (isValue_decimal h), readDecimal_decimal h]

/-- Fields that may stand in a PHC string, none of which is missing. -/
structure AreFields (algorithm : List Char) (version : Nat)
    (parameters : List (List Char × List Char)) (salt : List Char) (hash : List UInt8) :
    Prop where
  isName : IsName algorithm
  version_le : version ≤ Text.maxWord32
  parameters_ne_nil : parameters ≠ []
  isParameter : ∀ p ∈ parameters, IsParameter p
  byteLength_le : byteLength (parameterText parameters) ≤ 127
  isValue_salt : IsValue salt
  le_salt : 4 ≤ salt.length
  le_hash : 10 ≤ hash.length
  hash_le : hash.length ≤ 64

section

variable {algorithm salt : List Char} {version : Nat}
  {parameters : List (List Char × List Char)} {hash : List UInt8}

/-- The text of a PHC string. -/
theorem toList_render (hne : parameters ≠ []) :
    (render ⟨algorithm, some version, parameters, some salt, some hash⟩).toList =
      '$' :: (algorithm ++ '$' :: (('v' :: '=' :: Text.decimal version) ++
        '$' :: (parameterText parameters ++ '$' :: (salt ++ '$' ::
          Text.Alphabet.standard.encode hash)))) := by
  have hnoparams : parameters.isEmpty = false := List.isEmpty_eq_false_iff.mpr hne
  simp only [render, hnoparams, Bool.false_eq_true, if_false, String.toList_ofList,
    parameterText, List.append_assoc, List.cons_append]

/-- Dollar signs stand only between the fields of a PHC string, and in front of them. -/
theorem splitOn_render (h : AreFields algorithm version parameters salt hash) :
    Text.splitOn '$'
        (render ⟨algorithm, some version, parameters, some salt, some hash⟩).toList =
      [[], algorithm, 'v' :: '=' :: Text.decimal version, parameterText parameters, salt,
        Text.Alphabet.standard.encode hash] := by
  have halgorithm : '$' ∉ algorithm := h.isName.notMem rfl
  have hversion : '$' ∉ 'v' :: '=' :: Text.decimal version := by
    simpa using Text.notMem_decimal (c := '$') rfl version
  have hparameters : '$' ∉ parameterText parameters := by
    refine notMem_joinCommas (by decide) fun s hs => ?_
    obtain ⟨p, hp, rfl⟩ := List.mem_map.mp hs
    exact notMem_renderParameter (h.isParameter p hp) rfl rfl (by decide)
  have hsalt : '$' ∉ salt := h.isValue_salt.notMem rfl
  have hhash : '$' ∉ Text.Alphabet.standard.encode hash :=
    Text.Alphabet.notMem_encode Text.Alphabet.isProper_standard (by decide) hash
  rw [toList_render h.parameters_ne_nil, ← List.nil_append ('$' :: _),
    Text.splitOn_append_cons List.not_mem_nil, Text.splitOn_append_cons halgorithm,
    Text.splitOn_append_cons hversion, Text.splitOn_append_cons hparameters,
    Text.splitOn_append_cons hsalt, Text.splitOn_of_notMem hhash]

/-- **A PHC string with all its fields is read back.** -/
theorem parse_render (h : AreFields algorithm version parameters salt hash) :
    parse (render ⟨algorithm, some version, parameters, some salt, some hash⟩) =
      .ok ⟨algorithm, some version, parameters, some salt, some hash⟩ := by
  have hequals : (parameterText parameters).contains '=' = true :=
    List.contains_iff_mem.mpr (equals_mem_parameterText h.parameters_ne_nil)
  have hparameters := readParameters_parameterText h.parameters_ne_nil h.isParameter
    h.byteLength_le
  rw [parse, splitOn_render h]
  simp only [bind, Except.bind, readName_eq h.isName, takeVersion_decimal h.version_le,
    takeParameters, hequals, if_true, hparameters, takeSaltAndHash,
    readSalt_eq h.isValue_salt h.le_salt, readHash_encode h.le_hash h.hash_le, List.isEmpty_nil]

/-- The text of a PHC string has nothing in front of its first dollar sign, and the name of its
algorithm behind it. -/
theorem exists_rest_of_parse {text : String} {p : PhcString} (h : parse text = .ok p) :
    ∃ rest, Text.splitOn '$' text.toList = [] :: p.algorithm :: rest := by
  rw [parse] at h
  split at h
  · next algorithm rest hfields =>
      obtain ⟨name, hname, h⟩ := exists_of_bind_ok h
      obtain ⟨version, -, h⟩ := exists_of_bind_ok h
      obtain ⟨parameters, -, h⟩ := exists_of_bind_ok h
      obtain ⟨saltAndHash, -, h⟩ := exists_of_bind_ok h
      obtain rfl := Except.ok.inj h
      obtain rfl := eq_of_readName hname
      exact ⟨rest, hfields⟩
  · cases h

/-- The text of a PHC string is not empty. -/
theorem isEmpty_render (h : AreFields algorithm version parameters salt hash) :
    (render ⟨algorithm, some version, parameters, some salt, some hash⟩).isEmpty = false := by
  rw [String.isEmpty_eq_false_iff, ne_eq, ← String.toList_eq_nil_iff,
    toList_render h.parameters_ne_nil]
  exact List.cons_ne_nil _ _

end

end RealmDirectory.PhcString
