import RealmDirectory.Password.Engine
import RealmDirectory.Proofs.Password.Pbkdf2
import RealmDirectory.Proofs.Text.Numeral

/-!
# What is read as a PBKDF2 hash

A PBKDF2 hash is written in one form: a name, a number of rounds in decimal, a salt and a key,
with dollar signs between them. The reader takes that form, and more. It does not look at the
first field, so any name will do, and it takes the number of rounds in every spelling, with a
plus sign and zeros in front of it. A text in such a form is read as a hash that is written
differently. Whatever is not read is reported as malformed, with the first thing that is wrong.

## Main definitions

* `Pbkdf2.HasFields`: a text of four fields.
* `Pbkdf2.Stored.IsIn`, `Pbkdf2.Fault.IsIn`: what a text holds, and what is wrong with it.

## Main results

* `Pbkdf2.read_eq_ok_iff`: what is read.
* `Pbkdf2.read_eq_error_iff`: what is reported.
* `Pbkdf2.write_eq_iff`: when a hash that was read is written as it was.
* `Pbkdf2.read_written_form_iff`: all together.
-/

namespace RealmDirectory.Pbkdf2

variable {text tag rounds salt key : String}

/-! ### Texts of four fields -/

/-- A text of four fields with dollar signs between them. -/
structure HasFields (text tag rounds salt key : String) : Prop where
  text_eq : text = tag ++ "$" ++ rounds ++ "$" ++ salt ++ "$" ++ key
  notMem_tag : '$' ∉ tag.toList
  notMem_rounds : '$' ∉ rounds.toList
  notMem_salt : '$' ∉ salt.toList
  notMem_key : '$' ∉ key.toList

/-- The fields of a text are the parts between its dollar signs. -/
theorem fields_eq_iff {fields : List String} :
    Text.fields '$' text = fields ↔ Text.splitOn '$' text.toList = fields.map String.toList := by
  rw [Text.fields]
  constructor
  · rintro rfl
    simp [Function.comp_def]
  · intro h
    rw [h]
    simp [Function.comp_def]

theorem fields_eq_four_iff :
    Text.fields '$' text = [tag, rounds, salt, key] ↔ HasFields text tag rounds salt key := by
  have hdollar : "$".toList = ['$'] := rfl
  have htext : (tag ++ "$" ++ rounds ++ "$" ++ salt ++ "$" ++ key).toList =
      tag.toList ++ '$' :: (rounds.toList ++ '$' :: (salt.toList ++ '$' :: key.toList)) := by
    simp only [String.toList_append, hdollar, List.append_assoc, List.cons_append,
      List.nil_append]
  simp only [fields_eq_iff, List.map_cons, List.map_nil]
  constructor
  · intro hfour
    obtain ⟨htag, _, heq, hthree⟩ := (Text.splitOn_eq_cons_iff (List.cons_ne_nil _ _)).mp hfour
    obtain ⟨hrounds, _, rfl, htwo⟩ := (Text.splitOn_eq_cons_iff (List.cons_ne_nil _ _)).mp hthree
    obtain ⟨hsalt, _, rfl, hone⟩ := (Text.splitOn_eq_cons_iff (List.cons_ne_nil _ _)).mp htwo
    obtain ⟨rfl, hkey⟩ := Text.splitOn_eq_singleton_iff.mp hone
    exact ⟨String.toList_inj.mp (heq.trans htext.symm), htag, hrounds, hsalt, hkey⟩
  · rintro ⟨rfl, htag, hrounds, hsalt, hkey⟩
    rw [htext, Text.splitOn_append_cons htag, Text.splitOn_append_cons hrounds,
      Text.splitOn_append_cons hsalt, Text.splitOn_of_notMem hkey]

/-- A text has one more field than it has dollar signs. -/
theorem length_fields (text : String) :
    (Text.fields '$' text).length = text.toList.count '$' + 1 := by
  rw [Text.fields, List.length_map, Text.length_splitOn]

/-- Four fields have three dollar signs between them. -/
theorem HasFields.count_eq (h : HasFields text tag rounds salt key) :
    text.toList.count '$' = 3 := by
  have hlength := length_fields text
  rw [fields_eq_four_iff.mpr h] at hlength
  exact (Nat.succ.inj hlength).symm

/-! ### What is read and what is reported -/

/-- A text holds a hash: its salt and its key, and a numeral for its rounds, behind any name. -/
def Stored.IsIn (text : String) (s : Stored) : Prop :=
  ∃ tag rounds, HasFields text tag rounds s.salt s.key ∧
    Text.IsNumeral s.rounds rounds.toList ∧ 0 < s.rounds ∧ s.rounds ≤ Text.maxWord32

/-- What is wrong with a text that holds no hash. -/
def Fault.IsIn (text : String) : Fault → Prop
  | fieldCount found => found = text.toList.count '$' + 1 ∧ found ≠ 4
  | notANumber field => ∃ tag salt key, HasFields text tag field salt key ∧
      ∀ n ≤ Text.maxWord32, ¬ Text.IsNumeral n field.toList
  | noRounds => ∃ tag field salt key, HasFields text tag field salt key ∧
      Text.IsNumeral 0 field.toList

/-- A text of four fields is read by its second field. -/
theorem read_of_hasFields (h : HasFields text tag rounds salt key) :
    read text =
      match Text.readBounded Text.maxWord32 rounds.toList with
      | none => .error (.notANumber rounds)
      | some 0 => .error .noRounds
      | some n => .ok ⟨n, salt, key⟩ := by
  rewrite [read, fields_eq_four_iff.mpr h]
  rfl

/-- A text with another number of fields is not read. -/
theorem read_of_count_ne (h : text.toList.count '$' ≠ 3) :
    read text = .error (.fieldCount (text.toList.count '$' + 1)) := by
  rw [← length_fields, read]
  split
  · next hfields => exact absurd (fields_eq_four_iff.mp hfields).count_eq h
  · rfl

/-- A text with three dollar signs has four fields. -/
theorem exists_hasFields (h : text.toList.count '$' = 3) :
    ∃ tag rounds salt key, HasFields text tag rounds salt key := by
  have hlength := length_fields text
  rw [h] at hlength
  match hfields : Text.fields '$' text, hlength with
  | [tag, rounds, salt, key], _ => exact ⟨tag, rounds, salt, key, fields_eq_four_iff.mp hfields⟩

/-- What the reader answers is in the text. -/
theorem isIn_read (text : String) :
    match read text with
    | .ok s => s.IsIn text
    | .error fault => fault.IsIn text := by
  by_cases hcount : text.toList.count '$' = 3
  · obtain ⟨tag, rounds, salt, key, hfields⟩ := exists_hasFields hcount
    rw [read_of_hasFields hfields]
    cases hrounds : Text.readBounded Text.maxWord32 rounds.toList with
    | none =>
        refine ⟨tag, salt, key, hfields, fun n hn hnumeral => ?_⟩
        rw [Text.readBounded_eq_some_iff.mpr ⟨hn, hnumeral⟩] at hrounds
        cases hrounds
    | some n =>
        obtain ⟨hn, hnumeral⟩ := Text.readBounded_eq_some_iff.mp hrounds
        cases n with
        | zero => exact ⟨tag, rounds, salt, key, hfields, hnumeral⟩
        | succ m => exact ⟨tag, rounds, hfields, hnumeral, Nat.succ_pos m, hn⟩
  · rw [read_of_count_ne hcount]
    exact ⟨rfl, fun hfour => hcount (Nat.succ.inj hfour)⟩

/-- **What is read**: the hashes that are in the text. -/
theorem read_eq_ok_iff {s : Stored} : read text = .ok s ↔ s.IsIn text := by
  constructor
  · intro h
    have hread := isIn_read text
    rwa [h] at hread
  · rintro ⟨tag, field, hfields, hnumeral, hpos, hbound⟩
    obtain ⟨rounds, salt, key⟩ := s
    obtain ⟨n, rfl⟩ := Nat.exists_eq_succ_of_ne_zero (Nat.pos_iff_ne_zero.mp hpos)
    rw [read_of_hasFields hfields, Text.readBounded_eq_some_iff.mpr ⟨hbound, hnumeral⟩]
    rfl

/-- **What is reported**: what is wrong with the text. -/
theorem read_eq_error_iff {fault : Fault} : read text = .error fault ↔ fault.IsIn text := by
  constructor
  · intro h
    have hread := isIn_read text
    rwa [h] at hread
  · intro h
    cases fault with
    | fieldCount found =>
        obtain ⟨rfl, hfour⟩ := h
        exact read_of_count_ne fun hcount => hfour (congrArg Nat.succ hcount)
    | notANumber field =>
        obtain ⟨tag, salt, key, hfields, hnone⟩ := h
        rw [read_of_hasFields hfields]
        cases hrounds : Text.readBounded Text.maxWord32 field.toList with
        | none => rfl
        | some n =>
            obtain ⟨hn, hnumeral⟩ := Text.readBounded_eq_some_iff.mp hrounds
            exact absurd hnumeral (hnone n hn)
    | noRounds =>
        obtain ⟨tag, field, salt, key, hfields, hnumeral⟩ := h
        rw [read_of_hasFields hfields,
          Text.readBounded_eq_some_iff.mpr ⟨Nat.zero_le _, hnumeral⟩]
        rfl

/-! ### What is written -/

/-- A written hash has four fields. -/
theorem hasFields_write {s : Stored} (hsalt : '$' ∉ s.salt.toList) (hkey : '$' ∉ s.key.toList) :
    HasFields (write s) name (String.ofList (Text.decimal s.rounds)) s.salt s.key :=
  fields_eq_four_iff.mp (fields_write hsalt hkey)

/-- **When a hash is written as it was found**: when it was found behind the name, with its rounds
in decimal. -/
theorem write_eq_iff {s : Stored} (h : HasFields text tag rounds s.salt s.key) :
    write s = text ↔ tag = name ∧ rounds.toList = Text.decimal s.rounds := by
  constructor
  · intro heq
    have hwritten := fields_eq_four_iff.mpr (hasFields_write h.notMem_salt h.notMem_key)
    rw [heq, fields_eq_four_iff.mpr h] at hwritten
    injection hwritten with htag hrest
    injection hrest with hrounds
    exact ⟨htag, by rw [hrounds, String.toList_ofList]⟩
  · rintro ⟨rfl, hrounds⟩
    rw [h.text_eq, write, ← hrounds, String.ofList_toList]

/-- **What is read beside the written form.** A text is read as a hash exactly when the hash is in
it, behind any name and with its rounds in any spelling. It is what would be written for that
hash exactly when the name is the usual one and the rounds are in decimal, and every text that
can be written is read. A text that is not read has something wrong with it, which is reported as
a malformed hash. -/
theorem read_written_form_iff (text : String) :
    (∀ s, read text = .ok s ↔ s.IsIn text) ∧
      (∀ s tag rounds, HasFields text tag rounds s.salt s.key →
        (write s = text ↔ tag = name ∧ rounds.toList = Text.decimal s.rounds)) ∧
      (∀ s, 0 < s.rounds → s.rounds ≤ Text.maxWord32 → '$' ∉ s.salt.toList →
        '$' ∉ s.key.toList → write s = text → read text = .ok s) ∧
      ∀ fault, (read text = .error fault ↔ fault.IsIn text) ∧
        (fault.IsIn text → ∀ password, HashEngine.verifyPbkdf2 text password =
          .error (.malformedHash fault.message)) := by
  refine ⟨fun s => read_eq_ok_iff, fun s tag rounds => write_eq_iff,
    fun s hpos hbound hsalt hkey hwrite => ?_,
    fun fault => ⟨read_eq_error_iff, fun hfault password => ?_⟩⟩
  · rw [← hwrite, read_write hpos hbound hsalt hkey]
  · rw [HashEngine.verifyPbkdf2, read_eq_error_iff.mpr hfault]

/-- A hash of another algorithm, with a plus sign and a zero in front of its rounds, is read as
one that is written without them. -/
example :
    read "SHA1$+01000$c2FsdA==$a2V5" = .ok ⟨1000, "c2FsdA==", "a2V5"⟩ ∧
      write ⟨1000, "c2FsdA==", "a2V5"⟩ = "PBKDF2-SHA256$1000$c2FsdA==$a2V5" := by
  decide +kernel

end RealmDirectory.Pbkdf2
