import RealmDirectory.Config.Load
import RealmDirectory.Proofs.Config.Expansion
import RealmDirectory.Proofs.Config.Fields
import RealmDirectory.Proofs.Yaml.Documents

/-!
# Passwords from the environment

A reference to a variable can stand where a realm has its password. References are expanded before
the text is read as YAML, so that the value takes part in the syntax. A value that is a plain scalar
as it is becomes the password, character by character, and the rest of the configuration does not
depend on it. Any other value means what YAML makes of it: behind a number sign, for example, it is
a comment.

## Main definitions

* `StandsAlone`: the places of references that a plain scalar can fill.
* `IsPasswordIn`: configurations in which a marker is a password and nothing else.

## Main results

* `isMarker_text`: references are easy to find again.
* `DirectoryConfig.check_fillPasswords`: another password does not change whether a configuration
  can be used.
* `DirectoryConfig.ofText_password`: the value of the variable is the password.
* `DirectoryConfig.ofText_password_cut`: the text in front of a number sign is.
-/

namespace RealmDirectory

/-! ### References as markers -/

/-- Text without gaps and colons goes on as a plain scalar. -/
theorem Yaml.staysPlain_of_forall {s : List Char}
    (h : ∀ c ∈ s, isGapChar c = false ∧ c ≠ ':') : staysPlain s = true := by
  induction s with
  | nil => rfl
  | cons c s ih =>
      obtain ⟨⟨hgap, hcolon⟩, hs⟩ := List.forall_mem_cons.mp h
      rw [isGapChar, Bool.or_eq_false_iff] at hgap
      rw [staysPlain, ih hs, hgap.1, hgap.2, beq_eq_false_iff_ne.mpr hcolon]
      rfl

namespace Reference

variable {name : List Char} {c : Char}

theorem isNameChar_of_isNameStart (h : isNameStart c = true) : isNameChar c = true := by
  rw [isNameStart, Bool.or_eq_true] at h
  rw [isNameChar, Char.isAlphanum]
  simp only [Bool.or_eq_true]
  exact h.imp_left .inl

theorem forall_isNameChar_of_isProper (h : IsProper ⟨name, none⟩) :
    ∀ c ∈ name, isNameChar c = true := by
  obtain ⟨c, s, hname, hstart, hrest⟩ := h.name
  obtain rfl : name = c :: s := hname
  exact List.forall_mem_cons.mpr ⟨isNameChar_of_isNameStart hstart, hrest⟩

theorem ne_of_isNameChar {d : Char} (h : isNameChar c = true) (hd : isNameChar d = false) :
    c ≠ d := by
  rintro rfl
  rw [h] at hd
  cases hd

/-- No gap stands in a name. -/
theorem isGapChar_of_isNameChar (h : isNameChar c = true) : Yaml.isGapChar c = false := by
  have hne {d : Char} (hd : isNameChar d = false) : (c == d) = false :=
    beq_eq_false_iff_ne.mpr (ne_of_isNameChar h hd)
  rw [Yaml.isGapChar, Yaml.isBlank, Yaml.isBreak, hne rfl, hne rfl, hne rfl, hne rfl, hne rfl,
    hne rfl, hne rfl]
  rfl

/-- **References are easy to find again.** -/
theorem isMarker_text (h : IsProper ⟨name, none⟩) : Yaml.IsMarker (text ⟨name, none⟩) := by
  have hname := forall_isNameChar_of_isProper h
  have hall : ∀ c ∈ text ⟨name, none⟩, Yaml.isGapChar c = false ∧ c ≠ ':' := by
    rw [text, tail]
    simp only [List.forall_mem_cons, List.forall_mem_append]
    refine ⟨by decide, by decide, fun c hc => ?_, by decide, List.forall_mem_nil _⟩
    exact ⟨isGapChar_of_isNameChar (hname c hc), ne_of_isNameChar (hname c hc) rfl⟩
  refine ⟨⟨name ++ ['\x7d'], rfl, fun hmem => ?_⟩, fun c hc => (hall c hc).1,
    Yaml.staysPlain_of_forall hall⟩
  rcases List.mem_append.mp hmem with hmem | hmem
  · exact ne_of_isNameChar (hname _ hmem) rfl rfl
  · exact absurd hmem (by decide)

/-- References stand for something. -/
theorem isNullText_text : Yaml.isNullText (String.ofList (text ⟨name, none⟩)) = false := by
  have hfirst : ∀ s ∈ "" :: Yaml.nullTexts, s.toList.head? ≠ some '$' := by decide
  have hne : String.ofList (text ⟨name, none⟩) ∉ "" :: Yaml.nullTexts :=
    fun hmem => hfirst _ hmem (by rw [String.toList_ofList, text]; rfl)
  rw [List.mem_cons, not_or] at hne
  rw [Yaml.isNullText, Bool.or_eq_false_iff]
  exact ⟨by simpa using hne.1, by simpa using hne.2⟩

end Reference

/-! ### Expanding one reference -/

namespace Pieces

variable {s : List Char} {l : List Piece}

theorem isProper_of_mem {r : Reference} (h : Pieces s l) (hr : .reference r ∈ l) : r.IsProper := by
  induction h with
  | nil => cases hr
  | reference hr' _ ih =>
      rcases List.mem_cons.mp hr with heq | hr
      · cases heq
        exact hr'
      · exact ih hr
  | plain _ _ ih =>
      rcases List.mem_cons.mp hr with heq | hr
      · cases heq
      · exact ih hr

end Pieces

namespace Piece

variable {l l' : List Piece} {env : Environment} {x y : List Char}

/-- What pieces stand for is what those in front and those behind stand for. -/
theorem values_append (hx : values env l = .ok x) (hy : values env l' = .ok y) :
    values env (l ++ l') = .ok (x ++ y) := by
  obtain ⟨vs, hvs, rfl⟩ := exists_of_map_eq_ok hx
  obtain ⟨vs', hvs', rfl⟩ := exists_of_map_eq_ok hy
  rw [values, List.mapM_append, hvs, hvs', ← List.flatten_append]
  rfl

end Piece

theorem Piece.values_map_plain (env : Environment) (s : List Char) :
    Piece.values env (s.map .plain) = .ok s := by
  induction s with
  | nil => rfl
  | cons c s ih =>
      have hvalue : Piece.value env (.plain c) = .ok [c] := rfl
      rw [List.map_cons, Piece.values_cons_of_ok hvalue, ih]
      rfl

/-- What a text is expanded to, when a variable that is set is referred to in it. -/
theorem Pieces.expand_eq_of_reference {env : Environment} {text v : String} {name x y : List Char}
    {front back : List Piece} (h : Pieces text.toList (front ++ .reference ⟨name, none⟩ :: back))
    (hx : Piece.values env front = .ok x) (hy : Piece.values env back = .ok y)
    (hset : env.get? (String.ofList name) = some v) :
    expand env text = .ok (String.ofList (x ++ v.toList ++ y)) := by
  have hvalue : Piece.value env (.reference ⟨name, none⟩) = .ok v.toList := by
    rw [Piece.value, hset]
  have hbehind : Piece.values env (.reference ⟨name, none⟩ :: back) = .ok (v.toList ++ y) := by
    rw [Piece.values_cons_of_ok hvalue, hy]
    rfl
  have hexpand := h.expandFrom_eq env [] (Nat.le_refl 0)
  rw [List.nil_append, List.length_nil, Piece.values_append hx hbehind] at hexpand
  rw [expand, hexpand, List.append_assoc]
  rfl

/-! ### Other passwords -/

namespace RealmConfig

theorem fillPassword_eq (r v : String) (c : RealmConfig) :
    c.fillPassword r v =
      if c.database.password = some r then
        { c with database := { c.database with password := some v } }
      else c := by
  rw [fillPassword, Backend.fillPassword]
  split <;> rfl

theorem check_fillPassword (r v : String) (c : RealmConfig) :
    (c.fillPassword r v).check = c.check := rfl

end RealmConfig

namespace DirectoryConfig

theorem checkFrom_fillPassword (r v : String) (seen : List String) (realms : List RealmConfig) :
    checkFrom seen (realms.map (RealmConfig.fillPassword r v)) = checkFrom seen realms := by
  induction realms generalizing seen with
  | nil => rfl
  | cons realm realms ih =>
      have hid : (realm.fillPassword r v).id = realm.id := rfl
      rw [List.map_cons, checkFrom, checkFrom, RealmConfig.check_fillPassword, hid, ih]

/-- **Another password** does not change whether a configuration can be used. -/
theorem check_fillPasswords (r v : String) (c : DirectoryConfig) :
    (c.fillPasswords r v).check = c.check := by
  rw [check, check, fillPasswords, checkFrom_fillPassword, List.isEmpty_map]

/-- A configuration is another one when one of its passwords is replaced. -/
theorem fillPasswords_ne {r v : String} {c : DirectoryConfig} {realm : RealmConfig}
    (hrealm : realm ∈ c.realms) (hpassword : realm.database.password = some r) (hne : v ≠ r) :
    c.fillPasswords r v ≠ c := by
  intro heq
  have hrealms : c.realms.map (RealmConfig.fillPassword r v) = c.realms.map id :=
    (congrArg DirectoryConfig.realms heq).trans (List.map_id c.realms).symm
  have hsame : (realm.fillPassword r v).database.password = realm.database.password :=
    congrArg (fun s => s.database.password) (List.map_eq_map_iff.mp hrealms realm hrealm)
  rw [RealmConfig.fillPassword, Backend.fillPassword, if_pos hpassword, hpassword] at hsame
  exact hne (Option.some.inj hsame)

end DirectoryConfig

/-! ### Loading passwords -/

/-- A reference that a text which is a plain scalar can stand for: it is behind a blank and at the
end of its line, and is not written a second time. -/
structure StandsAlone (name x y : List Char) : Prop where
  blank : Yaml.endsBlank x = true
  line : Yaml.endsLine y = true
  notBefore : ¬ Reference.text ⟨name, none⟩ <:+: x
  notBehind : ¬ Reference.text ⟨name, none⟩ <:+: y

/-- A text that is a configuration, in which a marker is the password of realms and stands for
nothing else. -/
structure IsPasswordIn (r s : List Char) (c : DirectoryConfig) : Prop where
  node : ∃ n, Yaml.parse (String.ofList s) = .ok n ∧
    n.isOnlyAt "password" (String.ofList r) = true ∧ yamlForm.directory? n = some c
  usable : c.check = .ok ()
  password : ∃ realm ∈ c.realms, realm.database.password = some (String.ofList r)

namespace IsPasswordIn

variable {r s : List Char} {c : DirectoryConfig} {n : Yaml.Node}

/-- A marker that is a password stands in the node: another text in its place would be another
password. -/
theorem substitute_ne (h : IsPasswordIn r s c) (hr : Yaml.isNullText (String.ofList r) = false)
    (honly : n.isOnlyAt "password" (String.ofList r) = true)
    (hn : yamlForm.directory? n = some c) {w : List Char}
    (hw : Yaml.isNullText (String.ofList w) = false) (hne : w ≠ r) : n.substitute r w ≠ n := by
  intro heq
  obtain ⟨realm, hrealm, hpassword⟩ := h.password
  have hfill := Yaml.carries_directory? hr hw n honly
  rw [heq, hn, Option.map_some, Option.some.injEq] at hfill
  exact DirectoryConfig.fillPasswords_ne hrealm hpassword (fun h => hne (String.ofList_inj.mp h))
    hfill.symm

/-- **A plain scalar in place of the marker** is the password. -/
theorem exists_parse {before y v : List Char} (hr : Yaml.IsMarker r)
    (hnull : Yaml.isNullText (String.ofList r) = false) (hbefore : Yaml.endsBlank before = true)
    (hy : Yaml.endsLine y = true) (hfirst : ¬ r <:+: before) (hlast : ¬ r <:+: y)
    (h : IsPasswordIn r (before ++ r ++ y) c) (hv : Yaml.IsPlainText v)
    (hset : Yaml.isNullText (String.ofList v) = false) :
    ∃ n, Yaml.parse (String.ofList (before ++ v ++ y)) = .ok n ∧
      yamlForm.directory? n = some (c.fillPasswords (String.ofList r) (String.ofList v)) := by
  obtain ⟨n, hparse, honly, hn⟩ := h.node
  have hother : ['x'] ≠ r := by
    obtain ⟨r', rfl, -⟩ := hr.opens
    exact fun heq => absurd (List.cons.inj heq).1 (by decide)
  refine ⟨n.substitute r v, Yaml.parse_fill hr hv hbefore hy hfirst hlast
    (h.substitute_ne hnull honly hn (by decide) hother) hparse, ?_⟩
  rw [Yaml.carries_directory? hnull hset n honly, hn, Option.map_some]

end IsPasswordIn

namespace DirectoryConfig

/-- A text is loaded as the configuration that its expansion is. -/
theorem ofText_eq_ok {env : Environment} {text expanded : String} {n : Yaml.Node}
    {c : DirectoryConfig} (hexpand : expand env text = .ok expanded)
    (hparse : Yaml.parse expanded = .ok n) (hn : yamlForm.directory? n = some c)
    (hcheck : c.check = .ok ()) : ofText env text = .ok c := by
  simp only [ofText, hexpand, hparse, hn, hcheck]

/-- **The value of the variable is the password**, character by character, when it is a plain
scalar on one line that does not stand for nothing. Here the reference stands alone, and with the
reference left in it, the text is a configuration where the reference is a password: nothing else in
the configuration depends on the value. -/
theorem ofText_password {env : Environment} {text v : String} {name x y : List Char}
    {front back : List Piece} {c : DirectoryConfig}
    (hpieces : Pieces text.toList (front ++ .reference ⟨name, none⟩ :: back))
    (hx : Piece.values env front = .ok x) (hy : Piece.values env back = .ok y)
    (halone : StandsAlone name x y)
    (hconfig : IsPasswordIn (Reference.text ⟨name, none⟩)
      (x ++ Reference.text ⟨name, none⟩ ++ y) c)
    (hset : env.get? (String.ofList name) = some v) (hplain : Yaml.IsPlainText v.toList)
    (hnull : Yaml.isNullText v = false) :
    ∃ loaded, ofText env text = .ok loaded ∧ loaded.server = c.server ∧
      loaded.realms = c.realms.map fun realm =>
        if realm.database.password = some (String.ofList (Reference.text ⟨name, none⟩)) then
          { realm with database := { realm.database with password := some v } }
        else realm := by
  have hproper : Reference.IsProper ⟨name, none⟩ :=
    hpieces.isProper_of_mem (List.mem_append_right front List.mem_cons_self)
  obtain ⟨n, hparse, hn⟩ := hconfig.exists_parse (Reference.isMarker_text hproper)
    Reference.isNullText_text halone.blank halone.line halone.notBefore halone.notBehind hplain
    (by rwa [String.ofList_toList])
  rw [String.ofList_toList] at hn
  refine ⟨_, ofText_eq_ok (hpieces.expand_eq_of_reference hx hy hset) hparse hn ?_, rfl, ?_⟩
  · rw [check_fillPasswords, hconfig.usable]
  · exact List.map_congr_left fun realm _ => RealmConfig.fillPassword_eq _ v realm

/-- What stands in front of the password of a realm. -/
def untilPassword : List Char :=
  "realms:\n- id: a\n  database:\n    rdbms: mysql\n    url: mysql://db/a\n    password: ".toList

/-- A text that refers to a variable for the password of its realm. -/
def referring : String :=
  "realms:\n- id: a\n  database:\n    rdbms: mysql\n    url: mysql://db/a\n" ++
    "    password: $\x7bP\x7d\n"

/-- The configuration of this text with the reference left in it. -/
def referred : DirectoryConfig where
  realms :=
    [{ id := "a"
       database := { dialect := .mySql, url := "mysql://db/a", password := some "$\x7bP\x7d" } }]

theorem notMem_untilPassword : '$' ∉ untilPassword := by decide +kernel

theorem pieces_referring : Pieces referring.toList
    (untilPassword.map .plain ++ .reference ⟨['P'], none⟩ :: ['\n'].map .plain) := by
  have htext : referring.toList =
      untilPassword ++ (Reference.text ⟨['P'], none⟩ ++ (['\n'] ++ [])) := by decide +kernel
  have hproper : Reference.IsProper ⟨['P'], none⟩ := ⟨⟨'P', [], rfl, rfl, nofun⟩, nofun⟩
  have hend : Pieces (['\n'] ++ []) (['\n'].map .plain ++ []) := .append_of_not_mem (by decide) .nil
  rw [htext]
  exact .append_of_not_mem notMem_untilPassword (.reference hproper hend)

theorem isPasswordIn_referred : IsPasswordIn (Reference.text ⟨['P'], none⟩)
    (untilPassword ++ Reference.text ⟨['P'], none⟩ ++ ['\n']) referred := by
  have hparse : (Yaml.parse (String.ofList
      (untilPassword ++ Reference.text ⟨['P'], none⟩ ++ ['\n']))).toOption.any (fun n =>
        n.isOnlyAt "password" (String.ofList (Reference.text ⟨['P'], none⟩)) &&
          decide (yamlForm.directory? n = some referred)) = true := by decide +kernel
  obtain ⟨n, hn, hchecked⟩ := (Option.any_eq_true _ _).mp hparse
  obtain ⟨honly, hdirectory⟩ := Bool.and_eq_true_iff.mp hchecked
  refine ⟨⟨n, ?_, honly, of_decide_eq_true hdirectory⟩, by rfl, ?_⟩
  · cases hresult : Yaml.parse (String.ofList
        (untilPassword ++ Reference.text ⟨['P'], none⟩ ++ ['\n'])) with
    | error f =>
        rw [hresult] at hn
        cases hn
    | ok n' =>
        rw [hresult] at hn
        cases hn
        rfl
  · exact ⟨_, List.mem_singleton_self _, by rfl⟩

/-- The passwords that are loaded from this text when the variable has a value. -/
def passwordsWith (v : String) : Option (List (Option String)) :=
  (ofText (KeyedList.empty.insert "P" v) referring).toOption.map fun c =>
    c.realms.map fun realm => realm.database.password

/-- Signs inside a word are nothing special. -/
theorem ofText_password_word : passwordsWith "p:w#1" = some [some "p:w#1"] := by
  have halone : StandsAlone ['P'] untilPassword ['\n'] :=
    ⟨by decide +kernel, by decide,
      fun hinside => notMem_untilPassword (hinside.subset List.mem_cons_self), by decide⟩
  obtain ⟨loaded, hload, -, hrealms⟩ := ofText_password (v := "p:w#1") pieces_referring
    (Piece.values_map_plain (KeyedList.empty.insert "P" "p:w#1") _)
    (Piece.values_map_plain _ ['\n']) halone isPasswordIn_referred
    (by decide) ⟨by decide, by decide, by decide, by decide⟩ (by decide)
  rw [passwordsWith, hload]
  show some (loaded.realms.map _) = _
  rw [hrealms]
  decide +kernel

/-- **A value that is no plain scalar** is not loaded as it is: behind a blank, a number sign begins
a comment, which cuts the password short. -/
theorem ofText_password_cut :
    passwordsWith "s3cret" = some [some "s3cret"] ∧
      passwordsWith "s3cret #1" = some [some "s3cret"] ∧
        ¬ ∀ v, v ≠ "" → passwordsWith v = some [some v] := by
  have hcut : passwordsWith "s3cret #1" = some [some "s3cret"] := by decide +kernel
  refine ⟨by decide +kernel, hcut, fun hall => ?_⟩
  rw [hall "s3cret #1" (by decide)] at hcut
  exact absurd hcut (by decide)

end DirectoryConfig

end RealmDirectory
