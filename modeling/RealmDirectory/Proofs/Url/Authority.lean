import RealmDirectory.Proofs.Text.Numeral
import RealmDirectory.Proofs.Url.Host

/-!
# Authorities, read back

An authority is written as a user name and a password in front of an at sign, a host, and a port.
The reader takes the last at sign for the end of the password, the first colon for the end of the
user name, and the first colon outside brackets for the end of the host. These are the ones that
were written, since neither a user name nor a password holds a colon or an at sign: both are
encoded. A part that is empty is not written, and reads as empty.

## Main definitions

* `Authority.IsWritten`: the authorities that reading leaves, as far as they have a host.

## Main results

* `Url.isWritten_of_parseAuthority`: what is read is such an authority.
* `Url.parseAuthority_renderAuthority`: such an authority is read back.
* `Url.isInAuthority_of_mem`: what its text is made of.
-/

namespace RealmDirectory

/-- An authority with a host that reading leaves under a scheme. -/
structure Authority.IsWritten (scheme : String) (a : Authority) : Prop where
  username : ∀ c ∈ a.username.toList, Percent.inUserinfo c = false
  password : ∀ c ∈ a.password.toList, Percent.inUserinfo c = false
  host : a.host.IsWritten (Url.isKnown scheme)
  port : ∀ p, a.port = some p → Url.knownSchemes.lookup scheme ≠ some (some p.toNat)

namespace Url

variable {scheme : String} {a : Authority} {s rest : List Char}

/-! ### The text of an authority -/

/-- The user name and the password in front of an at sign. -/
def userinfoText (a : Authority) : List Char :=
  a.username.toList ++ if a.password = "" then [] else ':' :: a.password.toList

/-- A port behind its colon. -/
def portText : Option UInt16 → List Char
  | some p => ':' :: Text.decimal p.toNat
  | none => []

/-- An authority without credentials is a host and a port. -/
theorem toList_renderAuthority_of_eq (h : a.username = "" ∧ a.password = "") :
    (renderAuthority a).toList = a.host.render.toList ++ portText a.port := by
  rw [renderAuthority, renderUserinfo, if_pos h]
  cases a.port <;> simp [portText]

/-- An authority with credentials has them in front of an at sign. -/
theorem toList_renderAuthority_of_ne (h : ¬ (a.username = "" ∧ a.password = "")) :
    (renderAuthority a).toList =
      userinfoText a ++ '@' :: (a.host.render.toList ++ portText a.port) := by
  rw [renderAuthority, renderUserinfo, if_neg h, userinfoText]
  by_cases hpassword : a.password = "" <;> cases a.port <;> simp [portText, hpassword]

/-- A character that may stand in an authority: it neither ends one nor is cut off a URL. -/
structure IsInAuthority (c : Char) : Prop where
  visible : 0x20 < c.toNat
  slash : c ≠ '/'
  backslash : c ≠ '\\'
  question : c ≠ '?'
  number : c ≠ '#'

theorem isInAuthority_of_inUserinfo {c : Char} (hc : Percent.inUserinfo c = false) :
    IsInAuthority c where
  visible := Percent.isSet_inUserinfo.visible rfl hc
  slash := Percent.ne_of_eq_false hc rfl
  backslash := Percent.ne_of_eq_false hc rfl
  question := Percent.ne_of_eq_false hc rfl
  number := Percent.ne_of_eq_false hc rfl

theorem isInAuthority_of_isPlain {c : Char} (hc : Host.IsPlain c) : IsInAuthority c where
  visible := Percent.visible_of_isControl hc.2 (hc.ne rfl)
  slash := hc.ne rfl
  backslash := hc.ne rfl
  question := hc.ne rfl
  number := hc.ne rfl

/-- The characters that hold an authority together may stand in it. -/
theorem isInAuthority_of_mem_separators {c : Char} (hc : c ∈ [':', '@', '[', ']']) :
    IsInAuthority c := by
  simp only [List.mem_cons, List.not_mem_nil, or_false] at hc
  rcases hc with rfl | rfl | rfl | rfl <;> constructor <;> decide

/-- What stands behind the at sign of an authority: plain characters, colons and brackets. -/
theorem mem_hostPort (h : a.IsWritten scheme) {c : Char}
    (hc : c ∈ a.host.render.toList ++ portText a.port) :
    Host.IsPlain c ∨ c = ':' ∨ c = '[' ∨ c = ']' := by
  rcases List.mem_append.mp hc with hc | hc
  · exact Host.mem_render h.host hc
  · cases hport : a.port with
    | none =>
        rw [hport] at hc
        cases hc
    | some p =>
        rw [hport] at hc
        rcases List.mem_cons.mp hc with rfl | hc
        · exact .inr (.inl rfl)
        · have hdigit := Text.isDigit_of_mem_decimal hc
          exact .inl (Host.isPlain_of_isHex (Host.isHex_of_isDigit hdigit))

/-- What stands in front of it: characters that need no encoding there, and a colon. -/
theorem mem_userinfoText (h : a.IsWritten scheme) {c : Char} (hc : c ∈ userinfoText a) :
    Percent.inUserinfo c = false ∨ c = ':' := by
  rcases List.mem_append.mp hc with hc | hc
  · exact .inl (h.username c hc)
  · split at hc
    · cases hc
    · rcases List.mem_cons.mp hc with rfl | hc
      · exact .inr rfl
      · exact .inl (h.password c hc)

/-- **What stands in an authority** may stand there. -/
theorem isInAuthority_of_mem (h : a.IsWritten scheme) {c : Char}
    (hc : c ∈ (renderAuthority a).toList) : IsInAuthority c := by
  have hhost : ∀ c ∈ a.host.render.toList ++ portText a.port, IsInAuthority c := by
    intro c hc
    rcases mem_hostPort h hc with hplain | rfl | rfl | rfl
    · exact isInAuthority_of_isPlain hplain
    all_goals exact isInAuthority_of_mem_separators (by decide)
  by_cases hnone : a.username = "" ∧ a.password = ""
  · rw [toList_renderAuthority_of_eq hnone] at hc
    exact hhost c hc
  · rw [toList_renderAuthority_of_ne hnone, List.mem_append, List.mem_cons] at hc
    rcases hc with hc | rfl | hc
    · rcases mem_userinfoText h hc with hset | rfl
      · exact isInAuthority_of_inUserinfo hset
      · exact isInAuthority_of_mem_separators (by decide)
    · exact isInAuthority_of_mem_separators (by decide)
    · exact hhost c hc

/-! ### Reading back -/

theorem cutLastAt_of_notMem (h : '@' ∉ s) : cutLastAt s = none := by
  rw [cutLastAt, Text.splitOn_of_notMem h]
  rfl

/-- The only at sign is the last one. -/
theorem cutLastAt_append_cons {x y : List Char} (hx : '@' ∉ x) (hy : '@' ∉ y) :
    cutLastAt (x ++ '@' :: y) = some (x, y) := by
  rw [cutLastAt, Text.splitOn_append_cons hx, Text.splitOn_of_notMem hy]
  simp

/-- **Credentials are read back.** -/
theorem parseUserinfo_userinfoText (h : a.IsWritten scheme) :
    parseUserinfo (userinfoText a) = (a.username, a.password) := by
  have husername : ':' ∉ a.username.toList := fun hmem =>
    Percent.ne_of_eq_false (h.username _ hmem) rfl rfl
  have hcut : (Text.cut ':' (userinfoText a)).getD (userinfoText a, []) =
      (a.username.toList, a.password.toList) := by
    rw [userinfoText]
    split
    · next hnone => rw [List.append_nil, Text.cut_of_notMem husername, hnone]; rfl
    · rw [Text.cut_append_cons husername]; rfl
  rw [parseUserinfo, hcut]
  simp only [Percent.encode_eq_self h.username, Percent.encode_eq_self h.password,
    String.ofList_toList]

/-- The digits of a decimal have values. -/
theorem exists_mapM_digitValue? (h : ∀ c ∈ s, c.isDigit = true) :
    ∃ ds, s.mapM Text.digitValue? = some ds := by
  induction s with
  | nil => exact ⟨[], rfl⟩
  | cons c r ih =>
      obtain ⟨ds, hds⟩ := ih fun d hd => h d (List.mem_cons_of_mem c hd)
      have hc := Text.digitValue?_of_isDigit (h c List.mem_cons_self)
      exact ⟨_, by rw [List.mapM_cons, hc, hds]; rfl⟩

/-- **A port is read back**, when it is not the usual one of its scheme. -/
theorem parsePort_decimal {p : UInt16} (h : knownSchemes.lookup scheme ≠ some (some p.toNat)) :
    parsePort scheme (Text.decimal p.toNat) = .ok (some p) := by
  obtain ⟨ds, hds⟩ := exists_mapM_digitValue? (s := Text.decimal p.toNat)
    fun c => Text.isDigit_of_mem_decimal
  have hread : Text.readDigits 65535 0 (Text.decimal p.toNat) = some p.toNat :=
    Text.readDigits_decimal (Nat.le_of_lt_succ p.toNat_lt)
  have hfull : (Text.decimal p.toNat).isEmpty = false := by
    simpa using Text.decimal_ne_nil p.toNat
  rw [parsePort, hfull, hds, hread]
  simp only [Bool.false_eq_true, if_false, if_neg h]
  exact congrArg _ (congrArg _ UInt16.ofNat_toNat)

/-- **A host and a port are read back**, and nothing is left. -/
theorem parseHostPort_eq (h : a.IsWritten scheme) :
    parseHostPort scheme (a.host.render.toList ++ portText a.port) =
      .ok ((a.host, a.port), []) := by
  have hend : hostLength false (portText a.port) = 0 := by
    cases a.port <;> rfl
  have hlength := Host.hostLength_render_append h.host hend
  have hfull : a.host.render.toList.isEmpty = false := by simpa using Host.render_ne_nil h.host
  have hbackslash : ∀ c ∈ portText a.port, (c != '\\') = true := by
    intro c hc
    rw [bne_iff_ne]
    rcases mem_hostPort h (List.mem_append_right _ hc) with hplain | rfl | rfl | rfl
    · exact hplain.ne rfl
    all_goals decide
  have hport : parsePort scheme (((portText a.port).drop 1).takeWhile (· != '\\')) =
      .ok a.port := by
    rw [List.takeWhile_eq_self_iff.mpr fun c hc => hbackslash c (List.mem_of_mem_drop hc)]
    cases hp : a.port with
    | none => rfl
    | some p => exact parsePort_decimal (h.port p hp)
  have hleft : (portText a.port).dropWhile (· != '\\') = [] :=
    List.dropWhile_eq_nil_iff.mpr hbackslash
  simp only [parseHostPort, hlength, List.take_left', List.drop_left', hfull,
    Host.parse_render h.host, hport, hleft, Bool.false_eq_true, if_false]
  rfl

/-- **An authority with a host is read back.** -/
theorem parseAuthority_renderAuthority (h : a.IsWritten scheme) (atEnd : Bool) :
    parseAuthority scheme atEnd (renderAuthority a).toList = .ok (a, []) := by
  have hat : '@' ∉ a.host.render.toList ++ portText a.port := by
    intro hmem
    rcases mem_hostPort h hmem with hplain | heq | heq | heq
    · exact hplain.ne rfl rfl
    all_goals cases heq
  by_cases hnone : a.username = "" ∧ a.password = ""
  · rw [toList_renderAuthority_of_eq hnone, parseAuthority, cutLastAt_of_notMem hat]
    simp only [parseHostPort_eq h]
    obtain ⟨username, password, host, port⟩ := a
    obtain ⟨rfl, rfl⟩ := hnone
    rfl
  · have huserinfo : '@' ∉ userinfoText a := fun hmem =>
      (mem_userinfoText h hmem).elim (by decide) (by decide)
    have hhost : a.host ≠ .empty := by
      intro heq
      exact (heq ▸ h.host : Host.IsWritten _ .empty).elim
    have hfull : (a.host.render.toList ++ portText a.port).isEmpty = false := by
      simpa using fun hnil => absurd hnil (by simpa using Host.render_ne_nil h.host)
    rw [toList_renderAuthority_of_ne hnone, parseAuthority, cutLastAt_append_cons huserinfo hat]
    simp [parseUserinfo_userinfoText h, hfull, parseHostPort_eq h, hhost, bind, Except.bind]

/-! ### What reading leaves -/

/-- A port that is read is not the usual one of its scheme. -/
theorem lookup_ne_of_parsePort {port : Option UInt16} (h : parsePort scheme s = .ok port)
    {p : UInt16} (hp : port = some p) : knownSchemes.lookup scheme ≠ some (some p.toNat) := by
  rw [parsePort] at h
  split at h
  · obtain rfl := Except.ok.inj h
    cases hp
  split at h
  · next ds n hds hread =>
      have hle : n ≤ 65535 := ((Text.readDigits_eq_some_iff (Nat.zero_le _)).mp hread).2.2
      split at h
      · obtain rfl := Except.ok.inj h
        cases hp
      · next husual =>
          obtain rfl := Except.ok.inj h
          obtain rfl := Option.some.inj hp
          have hvalue : n.toUInt16.toNat = n := Nat.mod_eq_of_lt (Nat.lt_succ_of_le hle)
          rwa [hvalue]
  · cases h

/-- A host and a port that are read, when there is a host. -/
theorem isWritten_of_parseHostPort {host : Host} {port : Option UInt16}
    (h : parseHostPort scheme s = .ok ((host, port), rest)) (hne : host ≠ .empty) :
    host.IsWritten (isKnown scheme) ∧
      ∀ p, port = some p → knownSchemes.lookup scheme ≠ some (some p.toNat) := by
  -- Behind each way to find a host, the port is read and both are returned.
  have hrest : ∀ {found : Host}, (do
      let port ← parsePort scheme (((s.drop (hostLength false s)).drop 1).takeWhile (· != '\\'))
      .ok ((found, port), (s.drop (hostLength false s)).dropWhile (· != '\\'))) =
        Except.ok ((host, port), rest) →
      found = host ∧ ∀ p, port = some p → knownSchemes.lookup scheme ≠ some (some p.toNat) := by
    intro found hread
    obtain ⟨port', hport, hread⟩ := exists_of_bind_ok hread
    obtain ⟨hboth, -⟩ := Prod.mk.inj (Except.ok.inj hread)
    obtain ⟨rfl, rfl⟩ := Prod.mk.inj hboth
    exact ⟨rfl, fun p => lookup_ne_of_parsePort hport⟩
  rw [parseHostPort] at h
  split at h
  · split at h
    · exact absurd (hrest h).1.symm hne
    · cases h
  · obtain ⟨found, hhost, h⟩ := exists_of_bind_ok h
    obtain ⟨rfl, hport⟩ := hrest h
    exact ⟨Host.isWritten_of_parse hhost hne, hport⟩

/-- What is encoded needs no encoding. -/
theorem inUserinfo_of_mem_parseUserinfo {username password : String}
    (h : parseUserinfo s = (username, password)) :
    (∀ c ∈ username.toList, Percent.inUserinfo c = false) ∧
      ∀ c ∈ password.toList, Percent.inUserinfo c = false := by
  obtain ⟨rfl, rfl⟩ := Prod.mk.inj h
  simp only [String.toList_ofList]
  exact ⟨fun c => Percent.eq_false_of_mem_encode Percent.isSet_inUserinfo,
    fun c => Percent.eq_false_of_mem_encode Percent.isSet_inUserinfo⟩

/-- **An authority that is read under a scheme, with a host, is one that reading leaves.** -/
theorem isWritten_of_parseAuthority {atEnd : Bool}
    (h : parseAuthority scheme atEnd s = .ok (a, rest)) (hne : a.host ≠ .empty) :
    a.IsWritten scheme := by
  rw [parseAuthority] at h
  split at h
  · obtain ⟨⟨⟨host, port⟩, left⟩, hread, h⟩ := exists_of_bind_ok h
    obtain ⟨rfl, -⟩ := Prod.mk.inj (Except.ok.inj h)
    obtain ⟨hhost, hport⟩ := isWritten_of_parseHostPort hread hne
    exact ⟨by simp, by simp, hhost, hport⟩
  · next before behind hcut =>
      obtain ⟨husername, hpassword⟩ := inUserinfo_of_mem_parseUserinfo (s := before) rfl
      simp only at h
      split at h
      · cases h
      obtain ⟨⟨⟨host, port⟩, left⟩, hread, h⟩ := exists_of_bind_ok h
      split at h
      · cases h
      obtain ⟨rfl, -⟩ := Prod.mk.inj (Except.ok.inj h)
      obtain ⟨hhost, hport⟩ := isWritten_of_parseHostPort hread hne
      exact ⟨husername, hpassword, hhost, hport⟩

end Url

end RealmDirectory
