import RealmDirectory.Directory.Backend
import RealmDirectory.Proofs.Url.Reading

/-!
# Credentials in connection URLs

A user name and a password that are given beside the URL of a database are put into it, in place of
those that stand there. A driver reads the URL again and undoes the encodings of both. It finds the
scheme, the host, the port, the path and the query that were configured, whatever the credentials
are made of, since no delimiter in them is left as it is.

What it finds for the credentials is not always what was given. A percent sign is not encoded, so
one with two hexadecimal digits behind it is taken for an encoding and undone. The credentials come
out as they were given exactly when they hold no such escape.

## Main definitions

* `meaning`: the bytes that a user name or a password in a URL stands for.
* `Backend.Carries`: what stands for credentials that may have been given.

## Main results

* `Url.IsWritten.withCredentials`: a URL with other credentials is read back.
* `Backend.connectUrl_eq`: the URL to connect to.
* `Backend.connectUrl_carries`: what is found when it is read.
-/

namespace RealmDirectory

/-- The bytes that a user name or a password in a URL stands for. -/
def meaning (text : String) : List UInt8 := Percent.decode (Text.utf8Bytes text.toList)

/-- A user name or a password as it is put into a URL. -/
def encodeUserinfo (text : String) : String :=
  String.ofList (Percent.encode Percent.inUserinfo text.toList)

/-- Putting a text into a URL does not change what it stands for there. -/
theorem meaning_encodeUserinfo (text : String) : meaning (encodeUserinfo text) = meaning text := by
  rw [meaning, encodeUserinfo, String.toList_ofList,
    Percent.decode_encode Percent.isSet_inUserinfo, meaning]

namespace Url

variable {u : Url} {a : Authority}

/-- The URL with other credentials in its authority. -/
def setCredentials (u : Url) (a : Authority) (username password : String) : Url :=
  { u with authority := some { a with username, password } }

/-- **A URL with other credentials is one that reading leaves**, as long as they are encoded. -/
theorem IsWritten.withCredentials (h : u.IsWritten a) {username password : String}
    (husername : ∀ c ∈ username.toList, Percent.inUserinfo c = false)
    (hpassword : ∀ c ∈ password.toList, Percent.inUserinfo c = false) :
    (u.setCredentials a username password).IsWritten { a with username, password } where
  scheme := h.scheme
  notFile := h.notFile
  authority_eq := rfl
  authority := ⟨husername, hpassword, h.authority.host, h.authority.port⟩
  path := h.path
  query := h.query
  fragment := h.fragment

theorem withUsername_eq (h : u.carrier? = some a) (username : String) :
    u.withUsername username = some (u.setCredentials a (encodeUserinfo username) a.password) := by
  rw [withUsername, h]
  rfl

theorem withPassword_eq (h : u.carrier? = some a) (password : String) :
    u.withPassword password = some (u.setCredentials a a.username (encodeUserinfo password)) := by
  rw [withPassword, h]
  rfl

/-- A URL that can carry credentials can carry others in their place. -/
theorem carrier?_setCredentials (h : u.carrier? = some a) (username password : String) :
    (u.setCredentials a username password).carrier? = some { a with username, password } := by
  obtain ⟨hfile, -, hhost⟩ := carrier?_eq_some_iff.mp h
  exact carrier?_eq_some_iff.mpr ⟨hfile, rfl, hhost⟩

theorem setCredentials_self (h : u.carrier? = some a) :
    u.setCredentials a a.username a.password = u := by
  rw [setCredentials, ← (carrier?_eq_some_iff.mp h).2.1]

end Url

namespace Backend

variable {b : Backend} {u : Url} {a : Authority}

/-! ### Putting credentials into a URL -/

/-- What stands in a URL for credentials that may have been given, and else for those it had. -/
def carried (given : Option String) (before : String) : String :=
  match given with
  | some text => encodeUserinfo text
  | none => before

theorem carryUser_eq (ha : u.carrier? = some a) (user : Option String) :
    carryUser user u = .ok (u.setCredentials a (carried user a.username) a.password) := by
  cases user with
  | none => rw [carryUser, carried, Url.setCredentials_self ha]
  | some text => simp only [carryUser, Url.withUsername_eq ha, carried]

theorem carryPassword_eq (ha : u.carrier? = some a) (password : Option String) :
    carryPassword password u =
      .ok (u.setCredentials a a.username (carried password a.password)) := by
  cases password with
  | none => rw [carryPassword, carried, Url.setCredentials_self ha]
  | some text => simp only [carryPassword, Url.withPassword_eq ha, carried]

/-- The URL to connect to is found in steps, when credentials are given. -/
theorem connectUrl_of_given (hdialect : b.dialect ≠ .sqlite)
    (hgiven : b.user ≠ none ∨ b.password ≠ none) (hparse : Url.parse b.url = .ok u) :
    b.connectUrl =
      carryUser b.user u >>= fun v => carryPassword b.password v >>= fun w => .ok w.render := by
  have hsome : (b.user.isNone && b.password.isNone) = false := by
    rw [Bool.and_eq_false_iff, Option.isNone_eq_false_iff, Option.isNone_eq_false_iff,
      Option.isSome_iff_ne_none, Option.isSome_iff_ne_none]
    exact hgiven
  rw [connectUrl, hsome, if_neg Bool.false_ne_true, if_neg hdialect, hparse]

/-- **The URL to connect to** is the configured one with the credentials in it. -/
theorem connectUrl_eq (hdialect : b.dialect ≠ .sqlite)
    (hgiven : b.user ≠ none ∨ b.password ≠ none) (hparse : Url.parse b.url = .ok u)
    (ha : u.carrier? = some a) :
    b.connectUrl = .ok (u.setCredentials a (carried b.user a.username)
      (carried b.password a.password)).render := by
  rw [connectUrl_of_given hdialect hgiven hparse, carryUser_eq ha]
  have hpassword := carryPassword_eq
    (Url.carrier?_setCredentials ha (carried b.user a.username) a.password) b.password
  simp only [bind, Except.bind, hpassword]
  rfl

/-- The URL of a file carries no credentials. -/
theorem connectUrl_of_file (hdialect : b.dialect ≠ .sqlite)
    (hgiven : b.user ≠ none ∨ b.password ≠ none) (hparse : Url.parse b.url = .ok u)
    (hfile : u.scheme = "file") (text : String) : b.connectUrl ≠ .ok text := by
  have hcarrier : u.carrier? = none := by rw [Url.carrier?, if_pos hfile]
  have huser : ∀ name, u.withUsername name = none := fun name => by
    rw [Url.withUsername, hcarrier]
    rfl
  have hpassword : ∀ secret, u.withPassword secret = none := fun secret => by
    rw [Url.withPassword, hcarrier]
    rfl
  rw [connectUrl_of_given hdialect hgiven hparse]
  intro h
  obtain ⟨next, hnext, h⟩ := exists_of_bind_ok h
  obtain ⟨last, hlast, -⟩ := exists_of_bind_ok h
  cases hname : b.user with
  | some name =>
      rw [hname, carryUser, huser] at hnext
      cases hnext
  | none =>
      rw [hname, carryUser] at hnext
      obtain rfl := Except.ok.inj hnext
      cases hsecret : b.password with
      | some secret =>
          rw [hsecret, carryPassword, hpassword] at hlast
          cases hlast
      | none => exact hgiven.elim (fun h => h hname) (fun h => h hsecret)

/-! ### What a driver reads -/

/-- How credentials come out that may have been given: they stand for what the given text stands
for, which is this text when it holds no escape. Those that were not given stay as they were. -/
def Carries (given : Option String) (before after : String) : Prop :=
  match given with
  | some text =>
      meaning after = meaning text ∧
        (meaning after = Text.utf8Bytes text.toList ↔ ¬ Percent.HasEscape text.toList)
  | none => after = before

theorem carries_carried (given : Option String) (before : String) :
    Carries given before (carried given before) := by
  cases given with
  | none => rfl
  | some text =>
      have hmeaning : meaning (carried (some text) before) = meaning text :=
        meaning_encodeUserinfo text
      exact ⟨hmeaning, by rw [hmeaning]; exact Percent.decode_eq_self_iff text.toList⟩

/-- What is put into a URL needs no encoding there. -/
theorem inUserinfo_of_mem_carried (given : Option String) {before : String}
    (hbefore : ∀ c ∈ before.toList, Percent.inUserinfo c = false) :
    ∀ c ∈ (carried given before).toList, Percent.inUserinfo c = false := by
  cases given with
  | none => exact hbefore
  | some text =>
      rw [carried, encodeUserinfo, String.toList_ofList]
      exact fun c => Percent.eq_false_of_mem_encode Percent.isSet_inUserinfo

/-- **What is found when the URL to connect to is read.** When credentials are given for a URL with
a host, there is such a URL unless the configured one is that of a file. It reads as the configured
one with other credentials: scheme, host, port, path, query and fragment are the same. The
credentials come out as they were given exactly when they hold no percent sign with two hexadecimal
digits behind it. -/
theorem connectUrl_carries (hdialect : b.dialect ≠ .sqlite)
    (hgiven : b.user ≠ none ∨ b.password ≠ none) (hparse : Url.parse b.url = .ok u)
    (ha : u.authority = some a) (hhost : a.host ≠ .empty) :
    ((∃ text, b.connectUrl = .ok text) ↔ u.scheme ≠ "file") ∧
      ∀ text, b.connectUrl = .ok text → ∃ username password,
        Url.parse text = .ok { u with authority := some { a with username, password } } ∧
          Carries b.user a.username username ∧ Carries b.password a.password password := by
  by_cases hfile : u.scheme = "file"
  · have hnone := connectUrl_of_file hdialect hgiven hparse hfile
    exact ⟨iff_of_false (fun ⟨text, h⟩ => hnone text h) fun h => h hfile,
      fun text h => absurd h (hnone text)⟩
  · have hcarrier : u.carrier? = some a := Url.carrier?_eq_some_iff.mpr ⟨hfile, ha, hhost⟩
    have heq := connectUrl_eq hdialect hgiven hparse hcarrier
    have hwritten := Url.isWritten_of_parse hparse hcarrier
    refine ⟨iff_of_true ⟨_, heq⟩ hfile, fun text h => ?_⟩
    obtain rfl := Except.ok.inj (heq.symm.trans h)
    have hread := Url.parse_render (hwritten.withCredentials
      (inUserinfo_of_mem_carried b.user hwritten.authority.username)
      (inUserinfo_of_mem_carried b.password hwritten.authority.password))
    exact ⟨_, _, hread, carries_carried _ _, carries_carried _ _⟩

/-- A password in which an escape is written comes out as another one, and the user name beside it
as it was given. -/
theorem connectUrl_carries_escape :
    let b : Backend :=
      { dialect := .postgreSql, url := "postgres://db.internal:5432/users", user := some "reader",
        password := some "p%41ss" }
    ∃ text v c, b.connectUrl = .ok text ∧ Url.parse text = .ok v ∧ v.authority = some c ∧
      meaning c.username = Text.utf8Bytes "reader".toList ∧
      meaning c.password ≠ Text.utf8Bytes "p%41ss".toList := by
  intro b
  have hparse : Url.parse b.url = .ok
      { scheme := "postgres"
        authority := some { host := .name "db.internal", port := some 5432 }
        path := "/users" } := by decide +kernel
  obtain ⟨hexists, hread⟩ :=
    connectUrl_carries (b := b) (by decide) (.inl (by decide)) hparse rfl (by decide)
  obtain ⟨text, htext⟩ := hexists.mpr (by decide)
  obtain ⟨username, password, hv, huser, hpassword⟩ := hread text htext
  have hnone : ¬ Percent.HasEscape "reader".toList := by
    rintro ⟨before, r, heq, -⟩
    have hmem : '%' ∈ "reader".toList := by rw [heq]; simp
    exact absurd hmem (by decide)
  have hescape : Percent.HasEscape "p%41ss".toList :=
    ⟨['p'], ['4', '1', 's', 's'], rfl, '4', '1', ['s', 's'], rfl, rfl, rfl⟩
  exact ⟨text, _, _, htext, hv, rfl, huser.2.mpr hnone, fun heq => hpassword.2.mp heq hescape⟩

end Backend

end RealmDirectory
