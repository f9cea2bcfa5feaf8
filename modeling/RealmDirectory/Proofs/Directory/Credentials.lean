import RealmDirectory.Directory.Repository
import RealmDirectory.Proofs.Password.Engine

/-!
# Stored passwords over time

A directory stores one text for each of its users, and two operations touch it: storing a new
password writes the text of that user, and checking a password reads it. This module follows
any number of such steps, for any users and in any order, over a database that keeps a table
of texts. What a check answers is decided by the last text that was stored for the user, or
by the text that was there at first.

The table is what a repository sees of its database through its two statements. It can be a
part of a larger state, of which nothing else is asked.

## Main definitions

* `Repository.KeepsPasswords`: the database of a repository keeps a table of texts.
* `CredentialStep`, `Repository.performAll`: a step on a stored password, and a run of steps.
* `lastStored`: the last text that a run stored for a user.

## Main results

* `Repository.validateCredentials_eq`, `Repository.updateCredentials_eq`: what one operation
  answers, and what it leaves in the table.
* `Repository.table_performAll`: the table behind a run.
* `Repository.credentials_performAll`: what the operations answer behind a run.
-/

namespace RealmDirectory

/-! ### Operations one after the other -/

namespace Session

variable {σ α β : Type} {x : Session σ α} {f : α → Session σ β} {s s' : σ}

/-- Behind an operation that succeeds, the next one starts in the state that it left. -/
theorem bind_ok {a : α} (h : x s = (.ok a, s')) : (x >>= f) s = f a s' := by
  simp only [bind, ExceptT.bind, ExceptT.mk, StateT.bind]
  rw [h]
  rfl

/-- Behind an operation that fails, nothing is done. -/
theorem bind_error {e : Failure} (h : x s = (.error e, s')) :
    (x >>= f) s = (.error e, s') := by
  simp only [bind, ExceptT.bind, ExceptT.mk, StateT.bind]
  rw [h]
  rfl

end Session

/-! ### Tables of stored passwords -/

/-- The stored text of each user that is known; the text `none` is NULL. -/
abbrev PasswordTable := String → Option (Option String)

namespace PasswordTable

/-- The table with another text for a user that is known. -/
def store (t : PasswordTable) (user hash : String) : PasswordTable := fun other =>
  if other = user then (t user).map fun _ => some hash else t other

/-- The text that a user has to match: users without one match nothing. -/
def hash? (t : PasswordTable) (user : String) : Option String :=
  (t user).join.filter fun h => !h.isEmpty

/-- What a check of a password comes to. -/
def check (t : PasswordTable) (engine : HashEngine) (user password : String) :
    Except Failure Bool :=
  match t.hash? user with
  | none => .ok false
  | some h => engine.verify h password

theorem store_of_ne (t : PasswordTable) {user other : String} (h : other ≠ user)
    (hash : String) : t.store user hash other = t other := if_neg h

/-- Nothing is stored for a user that is not known. -/
theorem store_of_unknown {t : PasswordTable} {user : String} (h : t user = none)
    (hash : String) : t.store user hash = t := by
  funext other
  rw [store]
  split
  · next heq => rw [h, heq, h, Option.map_none]
  · rfl

/-- A text that accepts a password decides the check. -/
theorem check_of_verify {t : PasswordTable} {engine : HashEngine}
    {user password hash : String} (htable : t user = some (some hash))
    (h : engine.verify hash password = .ok true) : t.check engine user password = .ok true := by
  have hne : hash.isEmpty = false := by
    rw [String.isEmpty_eq_false_iff]
    rintro rfl
    exact engine.verify_empty_ne password h
  simp only [check, hash?, htable, Option.join_some, Option.filter_some, hne, Bool.not_false,
    if_true, h]

end PasswordTable

/-! ### Single operations -/

namespace Repository

variable {σ : Type} {r : Repository σ} {table : σ → PasswordTable}

/-- The database of a repository keeps a table of stored passwords. A connection can always
be taken; the lookup of a user reads the user's text; and the statement for changes, which
the repository has, stores a text for a user and changes one row if the user is known. -/
structure KeepsPasswords (r : Repository σ) (table : σ → PasswordTable) : Prop where
  hasUpdate : ∃ statement, r.queries.updatePassword = some statement
  acquire : ∀ s, ∃ s', r.source.acquire s = (.ok (), s') ∧ table s' = table s
  fetch : ∀ user s, ∃ rows s',
    r.source.fetch r.queries.findPasswordHash [user] s = (.ok rows, s') ∧
      rows.head?.bind Row.first = (table s user).join ∧ table s' = table s
  execute : ∀ statement, r.queries.updatePassword = some statement → ∀ hash user s, ∃ s',
    r.source.execute statement [hash, user] s =
        (.ok (if (table s user).isSome then 1 else 0), s') ∧
      table s' = (table s).store user hash

/-- Looking up a stored password reads the table. -/
theorem findPasswordHash_eq (h : r.KeepsPasswords table) (user : String) (s : σ) :
    ∃ s', r.findPasswordHash user s = ((table s).hash? user, s') ∧ table s' = table s := by
  obtain ⟨s₁, hacquire, htable₁⟩ := h.acquire s
  obtain ⟨rows, s₂, hfetch, hrows, htable₂⟩ := h.fetch user s₁
  have hload : r.loadPasswordHash user s = (.ok rows, s₂) := by
    rw [loadPasswordHash, Session.bind_ok hacquire, hfetch]
  have hfind : r.findPasswordHash user s =
      ((rows.head?.bind Row.first).filter fun h => !h.isEmpty, s₂) := by
    simp only [findPasswordHash, orElse, bind, StateT.bind, ExceptT.run]
    rw [hload]
    rfl
  refine ⟨s₂, ?_, htable₂.trans htable₁⟩
  rw [hfind, hrows, htable₁, PasswordTable.hash?]

/-- **A check answers by the table and leaves it alone.** -/
theorem validateCredentials_eq (h : r.KeepsPasswords table) (user password : String) (s : σ) :
    ∃ s', r.validateCredentials user password s =
        ((table s).check r.queries.engine user password, s') ∧ table s' = table s := by
  obtain ⟨s', hfind, htable⟩ := findPasswordHash_eq h user s
  refine ⟨s', ?_, htable⟩
  simp only [validateCredentials, hfind, PasswordTable.check]
  cases (table s).hash? user <;> rfl

/-- **Storing a password** that can be hashed stores its text, and answers whether the user
is known. -/
theorem updateCredentials_eq (h : r.KeepsPasswords table) {salt : Salt}
    {password hash : String} (hhash : r.queries.engine.hash salt password = .ok hash)
    (user : String) (s : σ) :
    ∃ s', r.updateCredentials salt user password s = (.ok (table s user).isSome, s') ∧
      table s' = (table s).store user hash := by
  obtain ⟨statement, hupdate⟩ := h.hasUpdate
  obtain ⟨s₁, hacquire, htable₁⟩ := h.acquire s
  obtain ⟨s₂, hexecute, htable₂⟩ := h.execute statement hupdate hash user s₁
  have hfirst : Session.ofExcept (r.queries.engine.hash salt password) s = (.ok hash, s) := by
    rw [hhash]
    rfl
  refine ⟨s₂, ?_, htable₁ ▸ htable₂⟩
  simp only [updateCredentials, hupdate]
  rw [Session.bind_ok hfirst, Session.bind_ok hacquire, Session.bind_ok hexecute, htable₁]
  cases (table s user).isSome <;> rfl

/-- A password that cannot be hashed is not stored. -/
theorem updateCredentials_error (h : r.KeepsPasswords table) {salt : Salt}
    {password : String} {f : Failure}
    (hhash : r.queries.engine.hash salt password = .error f) (user : String) (s : σ) :
    r.updateCredentials salt user password s = (.error f, s) := by
  obtain ⟨statement, hupdate⟩ := h.hasUpdate
  have hfirst : Session.ofExcept (r.queries.engine.hash salt password) s = (.error f, s) := by
    rw [hhash]
    rfl
  simp only [updateCredentials, hupdate]
  exact Session.bind_error hfirst

end Repository

/-! ### Runs of operations -/

/-- A step on the stored password of a user. New passwords come with the salt under which
they are hashed. -/
inductive CredentialStep where
  | update (salt : Salt) (user password : String)
  | validate (user password : String)

/-- Whether a step stores a password of a user. -/
def CredentialStep.Updates (user : String) : CredentialStep → Prop
  | update _ u _ => u = user
  | validate _ _ => False

/-- The steps of a run with their answers. -/
abbrev CredentialLog := List (CredentialStep × Except Failure Bool)

/-- The text that a step stored for a user: a password was stored when the answer was yes. -/
def storedBy (engine : HashEngine) (user : String) :
    CredentialStep × Except Failure Bool → Option String
  | (.update salt u password, .ok true) =>
      if u = user then (engine.hash salt password).toOption else none
  | _ => none

/-- The last text that a run stored for a user. -/
def lastStored (engine : HashEngine) (user : String) (log : CredentialLog) : Option String :=
  (log.filterMap (storedBy engine user)).getLast?

/-- The table behind a run, told from its answers: each user has the text that was stored
last, or else the one from before the run. -/
def PasswordTable.after (t : PasswordTable) (engine : HashEngine) (log : CredentialLog) :
    PasswordTable := fun user =>
  match lastStored engine user log with
  | some hash => some (some hash)
  | none => t user

/-- What was stored later counts. -/
theorem PasswordTable.after_cons (t : PasswordTable) (engine : HashEngine)
    (entry : CredentialStep × Except Failure Bool) (log : CredentialLog) :
    t.after engine (entry :: log) = (t.after engine [entry]).after engine log := by
  funext user
  simp only [after, lastStored]
  cases hentry : storedBy engine user entry with
  | none => simp [hentry]
  | some hash =>
      cases hlog : (log.filterMap (storedBy engine user)).getLast? with
      | none =>
          rw [List.getLast?_eq_none_iff] at hlog
          simp [hentry, hlog]
      | some later => simp [hentry, List.getLast?_cons, hlog]

namespace Repository

variable {σ : Type} {r : Repository σ} {table : σ → PasswordTable}

/-- Performs a step. -/
def perform (r : Repository σ) : CredentialStep → Session σ Bool
  | .update salt user password => r.updateCredentials salt user password
  | .validate user password => r.validateCredentials user password

/-- Performs some steps and keeps their answers. -/
def performAll (r : Repository σ) : List CredentialStep → σ → CredentialLog × σ
  | [], s => ([], s)
  | step :: steps, s =>
      let (answer, s) := r.perform step s
      let (log, s) := r.performAll steps s
      ((step, answer) :: log, s)

theorem performAll_cons (r : Repository σ) (step : CredentialStep)
    (steps : List CredentialStep) (s : σ) :
    r.performAll (step :: steps) s =
      ((step, (r.perform step s).1) :: (r.performAll steps (r.perform step s).2).1,
        (r.performAll steps (r.perform step s).2).2) := rfl

/-- **One step**: the table behind it is told from its answer. -/
theorem table_perform (h : r.KeepsPasswords table) (step : CredentialStep) (s : σ) :
    table (r.perform step s).2 =
      (table s).after r.queries.engine [(step, (r.perform step s).1)] := by
  cases step with
  | validate user password =>
      obtain ⟨s', heq, htable⟩ := validateCredentials_eq h user password s
      simp only [perform, heq, htable]
      rfl
  | update salt user password =>
      cases hhash : r.queries.engine.hash salt password with
      | error f =>
          simp only [perform, updateCredentials_error h hhash user s]
          rfl
      | ok hash =>
          obtain ⟨s', heq, htable⟩ := updateCredentials_eq h hhash user s
          simp only [perform, heq, htable]
          cases huser : table s user with
          | none =>
              rw [PasswordTable.store_of_unknown huser]
              rfl
          | some old =>
              funext other
              by_cases hother : user = other
              · subst hother
                simp [PasswordTable.store, PasswordTable.after, lastStored, storedBy, huser,
                  hhash, Except.toOption]
              · have hne : ¬ other = user := fun heq => hother heq.symm
                simp [PasswordTable.store, PasswordTable.after, lastStored, storedBy, hother,
                  hne]

/-- **A run of steps**: the table behind it is told from its answers. -/
theorem table_performAll (h : r.KeepsPasswords table) (steps : List CredentialStep) (s : σ) :
    table (r.performAll steps s).2 =
      (table s).after r.queries.engine (r.performAll steps s).1 := by
  induction steps generalizing s with
  | nil => rfl
  | cons step steps ih =>
      rw [performAll_cons, PasswordTable.after_cons, ← table_perform h]
      exact ih _

/-- Steps that store no password of a user leave the user's text alone. -/
theorem table_performAll_of_not_updates (h : r.KeepsPasswords table) {user : String}
    {steps : List CredentialStep} (hsteps : ∀ step ∈ steps, ¬ step.Updates user) (s : σ) :
    table (r.performAll steps s).2 user = table s user := by
  induction steps generalizing s with
  | nil => rfl
  | cons step steps ih =>
      have hstep := hsteps step List.mem_cons_self
      have hrest := ih (fun other hother => hsteps other (List.mem_cons_of_mem step hother))
        (r.perform step s).2
      rw [performAll_cons, hrest, table_perform h]
      cases step with
      | validate _ _ => rfl
      | update salt other password =>
          have hne : ¬ other = user := hstep
          cases (r.perform (.update salt other password) s).1 with
          | error _ => rfl
          | ok changed => cases changed <;> simp [PasswordTable.after, lastStored, storedBy, hne]

/-- **Behind any run, a check is decided by the text that was stored last.** It answers as the
engine does on that text, or on the text from before the run; a password that was just
stored is right, whatever was done with other users since. Storing a password of one user
touches no other user, answers whether the user is known, and does nothing for an unknown
one; and a check changes nothing. -/
theorem credentials_performAll (h : r.KeepsPasswords table)
    (hengine : r.queries.engine.IsUsable) (steps : List CredentialStep) (s : σ) :
    let engine := r.queries.engine
    let log := (r.performAll steps s).1
    let now := (r.performAll steps s).2
    (∀ user password, (r.validateCredentials user password now).1 =
      ((table s).after engine log).check engine user password) ∧
    (∀ salt user password, (r.updateCredentials salt user password now).1 = .ok true →
      ∀ between, (∀ step ∈ between, ¬ step.Updates user) →
        (r.validateCredentials user password
          (r.performAll between (r.updateCredentials salt user password now).2).2).1 =
            .ok true) ∧
    (∀ salt user password,
      (∀ other, other ≠ user →
        table (r.updateCredentials salt user password now).2 other = table now other) ∧
      ((∀ variant, engine.algorithm = .argon2 variant →
          (Digest.utf8 password).length < 2 ^ 32) →
        (r.updateCredentials salt user password now).1 = .ok (table now user).isSome) ∧
      (table now user = none →
        (r.updateCredentials salt user password now).1 ≠ .ok true ∧
          table (r.updateCredentials salt user password now).2 = table now)) ∧
    (∀ user password, table (r.validateCredentials user password now).2 = table now) := by
  intro engine log now
  refine ⟨fun user password => ?_, fun salt user password hupdate between hbetween => ?_,
    fun salt user password => ⟨fun other hother => ?_, fun hlength => ?_, fun hunknown => ?_⟩,
    fun user password => ?_⟩
  · obtain ⟨s', heq, -⟩ := validateCredentials_eq h user password now
    rw [heq, table_performAll h]
  · -- The answer yes means that the password was hashed and the user is known.
    cases hhash : r.queries.engine.hash salt password with
    | error f =>
        rw [updateCredentials_error h hhash] at hupdate
        cases hupdate
    | ok hash =>
        obtain ⟨s₁, heq, htable⟩ := updateCredentials_eq h hhash user now
        rw [heq] at hupdate ⊢
        have hknown : (table now user).isSome = true := Except.ok.inj hupdate
        obtain ⟨old, hold⟩ := Option.isSome_iff_exists.mp hknown
        have hentry : table (r.performAll between s₁).2 user = some (some hash) := by
          rw [table_performAll_of_not_updates h hbetween, htable]
          simp [PasswordTable.store, hold]
        obtain ⟨s₂, hvalidate, -⟩ := validateCredentials_eq h user password
          (r.performAll between s₁).2
        rw [hvalidate]
        exact PasswordTable.check_of_verify hentry
          (HashEngine.verify_of_hash hengine.built hengine.check rfl hhash)
  · cases hhash : r.queries.engine.hash salt password with
    | error f => rw [updateCredentials_error h hhash]
    | ok hash =>
        obtain ⟨s₁, heq, htable⟩ := updateCredentials_eq h hhash user now
        rw [heq, htable, PasswordTable.store_of_ne _ hother]
  · obtain ⟨hash, hhash⟩ := HashEngine.exists_hash hengine.check salt hlength
    obtain ⟨s₁, heq, -⟩ := updateCredentials_eq h hhash user now
    rw [heq]
  · cases hhash : r.queries.engine.hash salt password with
    | error f =>
        rw [updateCredentials_error h hhash]
        exact ⟨nofun, rfl⟩
    | ok hash =>
        obtain ⟨s₁, heq, htable⟩ := updateCredentials_eq h hhash user now
        rw [heq, htable, PasswordTable.store_of_unknown hunknown, hunknown]
        exact ⟨nofun, rfl⟩
  · obtain ⟨s', heq, htable⟩ := validateCredentials_eq h user password now
    rw [heq, htable]

/-! ### A table on its own -/

/-- The source of connections to a table of passwords: a lookup answers the text of the user
that is its first value, and a change stores its first value as the text of the user that is
its second one. -/
def tableSource : ConnectionSource (KeyedList String (Option String)) where
  acquire := fun t => (.ok (), t)
  fetch := fun _ values t =>
    match values.head?.bind t.get? with
    | some hash => (.ok [⟨[("pwd", hash)]⟩], t)
    | none => (.ok [], t)
  execute := fun _ values t =>
    match values with
    | hash :: user :: _ =>
        if t.contains user then (.ok 1, t.insert user (some hash)) else (.ok 0, t)
    | _ => (.ok 0, t)

/-- A repository that has a statement for changes keeps a table of passwords. -/
theorem keepsPasswords_tableSource {queries : TemplateSet} {statement : String}
    (h : queries.updatePassword = some statement) :
    (Repository.mk tableSource queries).KeepsPasswords KeyedList.get? where
  hasUpdate := ⟨statement, h⟩
  acquire := fun t => ⟨t, rfl, rfl⟩
  fetch := by
    intro user t
    cases huser : t.get? user with
    | none => exact ⟨[], t, by simp [tableSource, huser], rfl, rfl⟩
    | some hash => exact ⟨[⟨[("pwd", hash)]⟩], t, by simp [tableSource, huser], rfl, rfl⟩
  execute := by
    intro _ _ hash user t
    cases huser : t.get? user with
    | none =>
        refine ⟨t, by simp [tableSource, KeyedList.contains, huser], ?_⟩
        exact (PasswordTable.store_of_unknown huser hash).symm
    | some old =>
        refine ⟨t.insert user (some hash), by simp [tableSource, KeyedList.contains, huser], ?_⟩
        funext other
        simp [KeyedList.get?_insert, PasswordTable.store, huser]

/-- A run over a table of two users, one of whom has no password at first. -/
theorem credentials_performAll_two_users :
    let engine : HashEngine := { algorithm := .pbkdf2 }
    let templates : Templates :=
      { base := "select {columns} from users where {filters}"
        findPasswordHash := "select pwd from users where login = ?"
        updatePassword := some "update users set pwd = ? where login = ?" }
    let r : Repository (KeyedList String (Option String)) :=
      ⟨tableSource, TemplateSet.ofTemplates templates .empty engine .sqlite false false⟩
    let salt : Salt := Vector.replicate 16 7
    let steps : List CredentialStep :=
      [.update salt "ALICE" "first", .validate "BOB" "first", .update salt "BOB" "second",
        .update salt "CAROL" "third", .update salt "ALICE" "fourth"]
    let s : KeyedList String (Option String) :=
      KeyedList.ofList [("ALICE", none), ("BOB", some "x")]
    let log := (r.performAll steps s).1
    let now := (r.performAll steps s).2
    (r.KeepsPasswords KeyedList.get? ∧ r.queries.engine.IsUsable) ∧
    (∀ user password, (r.validateCredentials user password now).1 =
      (PasswordTable.after s.get? engine log).check engine user password) ∧
    (∀ salt user password, (r.updateCredentials salt user password now).1 = .ok true →
      ∀ between, (∀ step ∈ between, ¬ step.Updates user) →
        (r.validateCredentials user password
          (r.performAll between (r.updateCredentials salt user password now).2).2).1 =
            .ok true) := by
  intro engine templates r salt steps s log now
  have hkeeps : r.KeepsPasswords KeyedList.get? := keepsPasswords_tableSource rfl
  have hnamed : HashEngine.ofName "PBKDF2-SHA256" = .ok engine := rfl
  have hengine : r.queries.engine.IsUsable := ⟨.named hnamed, rfl⟩
  obtain ⟨hvalidate, hfresh, -⟩ := credentials_performAll hkeeps hengine steps s
  exact ⟨⟨hkeeps, hengine⟩, hvalidate, hfresh⟩

end Repository

end RealmDirectory
