import RealmDirectory.Proofs.Directory.Credentials

/-!
# Failures of credential operations

Checking a password and storing one can go wrong at every stage: there is no statement, the
password cannot be hashed, no connection is free, the statement fails. The two operations
treat failures in opposite ways. A check never lets anybody in by a failure: it says yes only
to a stored text that was read and that accepts the password. Storing a password hides no
failure: each one is returned, and nothing was stored then.

What was sent to the database is read off the record of a recorded source.

## Main definitions

* `Repository.Reads`: the lookup of a stored text succeeds.
* `Repository.Performs`, `Repository.FailsToStore`: storing a password goes through, or fails at
  some stage.
* `Repository.Updated`: the cases of storing a password, with what each of them sends.

## Main results

* `Repository.validateCredentials_eq_iff`, `Repository.validateCredentials_of_not_reads`: what a
  check comes to.
* `Repository.updated`: every attempt to store a password is one of the cases.
* `Repository.updateCredentials_eq_error_iff`, `Repository.updateCredentials_eq_ok_iff`: what an
  attempt to store a password returns.
* `Repository.view_updateCredentials_of_error`: a password that could not be stored has changed
  nothing.
-/

namespace RealmDirectory

variable {σ : Type}

/-- An operation with a next one succeeds when both do. -/
theorem Session.bind_eq_ok_iff {α β : Type} {x : Session σ α} {f : α → Session σ β} {s s' : σ}
    {b : β} : (x >>= f) s = (.ok b, s') ↔
      ∃ a s₁, x s = (.ok a, s₁) ∧ f a s₁ = (.ok b, s') := by
  rcases hx : x s with ⟨e | a, s₁⟩
  · rw [bind_error hx]
    constructor
    · intro h
      cases h
    · rintro ⟨a, s₂, h, -⟩
      cases h
  · rw [bind_ok hx]
    constructor
    · exact fun h => ⟨a, s₁, rfl, h⟩
    · rintro ⟨a', s₂, h, hf⟩
      cases h
      exact hf

/-- A result that is there is handed on. -/
theorem Session.ofExcept_ok_bind {α β : Type} (a : α) (f : α → Session σ β) (s : σ) :
    (ofExcept (.ok a) >>= f) s = f a s :=
  bind_ok rfl

namespace Repository

variable {r : Repository σ} {user password : String} {salt : Salt} {s : σ}

/-! ### Checking a password -/

/-- The lookup of a user's stored text succeeds: a connection is acquired, the statement
selects a row, and the first column of the first row is neither NULL nor empty. -/
def Reads (r : Repository σ) (user : String) (s : σ) (hash : String) : Prop :=
  ∃ s₁ rows s₂, r.source.acquire s = (.ok (), s₁) ∧
    r.source.fetch r.queries.findPasswordHash [user] s₁ = (.ok rows, s₂) ∧
      rows.head?.bind Row.first = some hash ∧ hash ≠ ""

/-- The rows of a lookup, when a connection was acquired and the statement succeeded. -/
theorem loadPasswordHash_eq_ok_iff {rows : List Row} {s₂ : σ} :
    r.loadPasswordHash user s = (.ok rows, s₂) ↔
      ∃ s₁, r.source.acquire s = (.ok (), s₁) ∧
        r.source.fetch r.queries.findPasswordHash [user] s₁ = (.ok rows, s₂) :=
  Session.bind_eq_ok_iff.trans ⟨fun ⟨(), h⟩ => h, fun h => ⟨(), h⟩⟩

/-- The answer of an operation that may fail, and the state behind it. -/
theorem orElse_eq {α : Type} (substitute : α) (operation : Session σ α) (s : σ) :
    orElse substitute operation s =
      ((operation s).1.toOption.getD substitute, (operation s).2) := by
  simp only [orElse, bind, StateT.bind, ExceptT.run]
  rcases operation s with ⟨_ | a, s'⟩ <;> rfl

/-- **What is looked up is what is read**: failures read as if there were no stored text. -/
theorem findPasswordHash_eq_some_iff {hash : String} :
    (r.findPasswordHash user s).1 = some hash ↔ r.Reads user s hash := by
  have hfind : (r.findPasswordHash user s).1 =
      ((orElse [] (r.loadPasswordHash user) s).1.head?.bind Row.first).filter
        fun h => !h.isEmpty := rfl
  rw [hfind, orElse_eq]
  rcases hload : r.loadPasswordHash user s with ⟨f | rows, s₂⟩
  · refine iff_of_false (fun h => nomatch h) ?_
    rintro ⟨s₁, rows, s₂', hacquire, hfetch, -⟩
    have hok := loadPasswordHash_eq_ok_iff.mpr ⟨s₁, hacquire, hfetch⟩
    rw [hload] at hok
    cases hok
  · obtain ⟨s₁, hacquire, hfetch⟩ := loadPasswordHash_eq_ok_iff.mp hload
    have hsame : r.Reads user s hash ↔ rows.head?.bind Row.first = some hash ∧ hash ≠ "" := by
      constructor
      · rintro ⟨s₁', rows', s₂', hacquire', hfetch', hrow⟩
        have hok := loadPasswordHash_eq_ok_iff.mpr ⟨s₁', hacquire', hfetch'⟩
        rw [hload] at hok
        obtain ⟨hrows, -⟩ := Prod.mk.inj hok
        obtain rfl := Except.ok.inj hrows
        exact hrow
      · exact fun hrow => ⟨s₁, rows, s₂, hacquire, hfetch, hrow⟩
    rw [hsame]
    simp [Except.toOption, Option.filter_eq_some_iff]

/-- A check looks the stored text up, and leaves the rest to the engine. -/
theorem validateCredentials_of_find {stored : Option String} {s' : σ}
    (h : r.findPasswordHash user s = (stored, s')) :
    r.validateCredentials user password s =
      ((stored.map fun hash => r.queries.engine.verify hash password).getD (.ok false), s') := by
  simp only [validateCredentials, h]
  cases stored <;> rfl

/-- A check leaves the state that its lookup leaves. -/
theorem validateCredentials_snd :
    (r.validateCredentials user password s).2 = (r.loadPasswordHash user s).2 := by
  have hlookup : (r.findPasswordHash user s).2 = (orElse [] (r.loadPasswordHash user) s).2 := rfl
  rw [orElse_eq] at hlookup
  rcases hfind : r.findPasswordHash user s with ⟨stored, s'⟩
  rw [validateCredentials_of_find hfind, ← hlookup, hfind]

/-- **A stored text that was read is checked by the engine**, and the engine's answer or
failure is returned. -/
theorem validateCredentials_of_reads {hash : String} (h : r.Reads user s hash) :
    (r.validateCredentials user password s).1 = r.queries.engine.verify hash password := by
  have hfind : r.findPasswordHash user s = (some hash, (r.findPasswordHash user s).2) :=
    Prod.ext (findPasswordHash_eq_some_iff.mpr h) rfl
  rw [validateCredentials_of_find hfind]
  rfl

/-- **Without a stored text that was read, no password is right.** -/
theorem validateCredentials_of_not_reads (h : ∀ hash, ¬ r.Reads user s hash) :
    (r.validateCredentials user password s).1 = .ok false := by
  have hnone : (r.findPasswordHash user s).1 = none :=
    Option.eq_none_iff_forall_ne_some.mpr fun hash heq =>
      h hash (findPasswordHash_eq_some_iff.mp heq)
  have hfind : r.findPasswordHash user s = (none, (r.findPasswordHash user s).2) :=
    Prod.ext hnone rfl
  rw [validateCredentials_of_find hfind]
  rfl

/-- A check comes to something other than no exactly when a stored text was read and the
engine says so. -/
theorem validateCredentials_eq_iff {answer : Except Failure Bool} (hanswer : answer ≠ .ok false) :
    (r.validateCredentials user password s).1 = answer ↔
      ∃ hash, r.Reads user s hash ∧ r.queries.engine.verify hash password = answer := by
  constructor
  · intro h
    by_cases hreads : ∃ hash, r.Reads user s hash
    · obtain ⟨hash, hhash⟩ := hreads
      exact ⟨hash, hhash, (validateCredentials_of_reads hhash).symm.trans h⟩
    · rw [validateCredentials_of_not_reads fun hash hhash => hreads ⟨hash, hhash⟩] at h
      exact absurd h.symm hanswer
  · rintro ⟨hash, hhash, hverify⟩
    rw [validateCredentials_of_reads hhash, hverify]

/-! ### Storing a password -/

/-- Without a statement for changes nothing is done. -/
theorem updateCredentials_unconfigured (hupdate : r.queries.updatePassword = none) :
    r.updateCredentials salt user password s =
      (.error (.notSupported "Password updates are not configured"), s) := by
  simp only [updateCredentials, hupdate]
  rfl

section

variable {statement : String} (hupdate : r.queries.updatePassword = some statement)
include hupdate

/-- The stages of storing a password, when there is a statement for it. -/
theorem updateCredentials_eq_bind :
    r.updateCredentials salt user password =
      (Session.ofExcept (r.queries.engine.hash salt password) >>= fun hash => do
        r.source.acquire
        let changed ← r.source.execute statement [hash, user]
        return decide (0 < changed)) := by
  simp only [updateCredentials, hupdate]

/-- A password that cannot be hashed stops the operation before it takes a connection. -/
theorem updateCredentials_unhashed {f : Failure}
    (hhash : r.queries.engine.hash salt password = .error f) :
    r.updateCredentials salt user password s = (.error f, s) := by
  rw [updateCredentials_eq_bind hupdate, hhash]
  exact Session.bind_error rfl

variable {hash : String} (hhash : r.queries.engine.hash salt password = .ok hash)
include hhash

/-- Without a connection no statement is sent. -/
theorem updateCredentials_unconnected {f : Failure} {s₁ : σ}
    (hacquire : r.source.acquire s = (.error f, s₁)) :
    r.updateCredentials salt user password s = (.error f, s₁) := by
  rw [updateCredentials_eq_bind hupdate, hhash, Session.ofExcept_ok_bind]
  exact Session.bind_error hacquire

/-- What becomes of the statement decides what is returned. -/
theorem updateCredentials_sent {s₁ s₂ : σ} {result : Except Failure Nat}
    (hacquire : r.source.acquire s = (.ok (), s₁))
    (hexecute : r.source.execute statement [hash, user] s₁ = (result, s₂)) :
    r.updateCredentials salt user password s =
      (result.map fun changed => decide (0 < changed), s₂) := by
  rw [updateCredentials_eq_bind hupdate, hhash, Session.ofExcept_ok_bind,
    Session.bind_ok hacquire]
  cases result with
  | error f => exact Session.bind_error hexecute
  | ok changed => exact Session.bind_ok hexecute

end

/-- The same repository with a record of its statements. -/
def recorded (r : Repository σ) : Repository (σ × List Call) :=
  { r with source := r.source.recorded }

/-- The cases of storing a password: what is returned with the state behind it, and the
statements that were sent. -/
inductive Updated (r : Repository σ) (salt : Salt) (user password : String) (s : σ) :
    Except Failure Bool × σ → List Call → Prop
  /-- There is no statement for changes. -/
  | unconfigured (hupdate : r.queries.updatePassword = none) :
      Updated r salt user password s
        (.error (.notSupported "Password updates are not configured"), s) []
  /-- The password cannot be hashed. -/
  | unhashed {statement : String} {f : Failure}
      (hupdate : r.queries.updatePassword = some statement)
      (hhash : r.queries.engine.hash salt password = .error f) :
      Updated r salt user password s (.error f, s) []
  /-- No connection is free. -/
  | unconnected {statement hash : String} {f : Failure} {s₁ : σ}
      (hupdate : r.queries.updatePassword = some statement)
      (hhash : r.queries.engine.hash salt password = .ok hash)
      (hacquire : r.source.acquire s = (.error f, s₁)) :
      Updated r salt user password s (.error f, s₁) []
  /-- The statement fails. -/
  | refused {statement hash : String} {f : Failure} {s₁ s₂ : σ}
      (hupdate : r.queries.updatePassword = some statement)
      (hhash : r.queries.engine.hash salt password = .ok hash)
      (hacquire : r.source.acquire s = (.ok (), s₁))
      (hexecute : r.source.execute statement [hash, user] s₁ = (.error f, s₂)) :
      Updated r salt user password s (.error f, s₂) [⟨.changes, statement, [hash, user]⟩]
  /-- The statement succeeds. -/
  | performed {statement hash : String} {changed : Nat} {s₁ s₂ : σ}
      (hupdate : r.queries.updatePassword = some statement)
      (hhash : r.queries.engine.hash salt password = .ok hash)
      (hacquire : r.source.acquire s = (.ok (), s₁))
      (hexecute : r.source.execute statement [hash, user] s₁ = (.ok changed, s₂)) :
      Updated r salt user password s (.ok (0 < changed), s₂)
        [⟨.changes, statement, [hash, user]⟩]

/-- **A statement is sent only when there is one, the password is hashed and a connection is
acquired.** -/
theorem Updated.sent_cases {result : Except Failure Bool × σ} {sent : List Call}
    (h : r.Updated salt user password s result sent) :
    sent = [] ∨ ∃ statement hash s₁, r.queries.updatePassword = some statement ∧
      r.queries.engine.hash salt password = .ok hash ∧ r.source.acquire s = (.ok (), s₁) ∧
        sent = [⟨.changes, statement, [hash, user]⟩] := by
  cases h with
  | unconfigured hupdate => exact Or.inl rfl
  | unhashed hupdate hhash => exact Or.inl rfl
  | unconnected hupdate hhash hacquire => exact Or.inl rfl
  | refused hupdate hhash hacquire hexecute =>
      exact Or.inr ⟨_, _, _, hupdate, hhash, hacquire, rfl⟩
  | performed hupdate hhash hacquire hexecute =>
      exact Or.inr ⟨_, _, _, hupdate, hhash, hacquire, rfl⟩

/-- Acquiring a connection leaves the record as it is. -/
theorem acquire_recorded (source : ConnectionSource σ) (s : σ) (log : List Call) :
    source.recorded.acquire (s, log) = ((source.acquire s).1, ((source.acquire s).2, log)) := rfl

/-- A statement for changes is recorded, whatever becomes of it. -/
theorem execute_recorded (source : ConnectionSource σ) (statement : String)
    (values : List String) (s : σ) (log : List Call) :
    source.recorded.execute statement values (s, log) =
      ((source.execute statement values s).1,
        ((source.execute statement values s).2, log ++ [⟨.changes, statement, values⟩])) := rfl

/-- A statement for rows is recorded, whatever becomes of it. -/
theorem fetch_recorded (source : ConnectionSource σ) (statement : String)
    (values : List String) (s : σ) (log : List Call) :
    source.recorded.fetch statement values (s, log) =
      ((source.fetch statement values s).1,
        ((source.fetch statement values s).2, log ++ [⟨.rows, statement, values⟩])) := rfl

/-- **Every attempt to store a password is one of the cases**, and sends what the case says. -/
theorem updated (r : Repository σ) (salt : Salt) (user password : String) (s : σ)
    (log : List Call) :
    ∃ sent, r.Updated salt user password s (r.updateCredentials salt user password s) sent ∧
      r.recorded.updateCredentials salt user password (s, log) =
        ((r.updateCredentials salt user password s).1,
          ((r.updateCredentials salt user password s).2, log ++ sent)) := by
  have hsame : r.recorded.queries = r.queries := rfl
  cases hupdate : r.queries.updatePassword with
  | none =>
      rw [updateCredentials_unconfigured hupdate,
        updateCredentials_unconfigured (r := r.recorded) hupdate, ← List.append_nil log]
      exact ⟨[], .unconfigured hupdate, by simp⟩
  | some statement =>
      cases hhash : r.queries.engine.hash salt password with
      | error f =>
          rw [updateCredentials_unhashed hupdate hhash,
            updateCredentials_unhashed (r := r.recorded) hupdate hhash]
          exact ⟨[], .unhashed hupdate hhash, by simp⟩
      | ok hash =>
          rcases hacquire : r.source.acquire s with ⟨f | _, s₁⟩
          · have hrecorded : r.recorded.source.acquire (s, log) = (.error f, (s₁, log)) := by
              rw [recorded, acquire_recorded, hacquire]
            rw [updateCredentials_unconnected hupdate hhash hacquire,
              updateCredentials_unconnected (r := r.recorded) hupdate hhash hrecorded]
            exact ⟨[], .unconnected hupdate hhash hacquire, by simp⟩
          · have hrecorded : r.recorded.source.acquire (s, log) = (.ok (), (s₁, log)) := by
              rw [recorded, acquire_recorded, hacquire]
            have hnoted := execute_recorded r.source statement [hash, user] s₁ log
            rcases hexecute : r.source.execute statement [hash, user] s₁ with ⟨result, s₂⟩
            rw [hexecute] at hnoted
            rw [updateCredentials_sent hupdate hhash hacquire hexecute,
              updateCredentials_sent (r := r.recorded) hupdate hhash hrecorded hnoted]
            refine ⟨[⟨.changes, statement, [hash, user]⟩], ?_, rfl⟩
            cases result with
            | error f => exact .refused hupdate hhash hacquire hexecute
            | ok changed => exact .performed hupdate hhash hacquire hexecute

/-- The statement of storing a password is performed: there is one, the password is hashed, a
connection is acquired, and the statement changes so many rows. -/
def Performs (r : Repository σ) (salt : Salt) (user password : String) (s : σ)
    (changed : Nat) : Prop :=
  ∃ statement hash s₁ s₂, r.queries.updatePassword = some statement ∧
    r.queries.engine.hash salt password = .ok hash ∧ r.source.acquire s = (.ok (), s₁) ∧
      r.source.execute statement [hash, user] s₁ = (.ok changed, s₂)

/-- Some stage of storing a password fails: there is no statement, the password cannot be
hashed, no connection is acquired, or the statement fails. -/
def FailsToStore (r : Repository σ) (salt : Salt) (user password : String) (s : σ)
    (f : Failure) : Prop :=
  r.queries.updatePassword = none ∧ f = .notSupported "Password updates are not configured" ∨
    ∃ statement, r.queries.updatePassword = some statement ∧
      (r.queries.engine.hash salt password = .error f ∨
        ∃ hash s₁, r.queries.engine.hash salt password = .ok hash ∧
          (r.source.acquire s = (.error f, s₁) ∨
            r.source.acquire s = (.ok (), s₁) ∧
              ∃ s₂, r.source.execute statement [hash, user] s₁ = (.error f, s₂)))

/-- A failure of a stage is returned. -/
theorem updateCredentials_of_failsToStore {f : Failure}
    (h : r.FailsToStore salt user password s f) :
    (r.updateCredentials salt user password s).1 = .error f := by
  rcases h with ⟨hupdate, rfl⟩ | ⟨statement, hupdate, hhash | ⟨hash, s₁, hhash, hacquire |
    ⟨hacquire, s₂, hexecute⟩⟩⟩
  · rw [updateCredentials_unconfigured hupdate]
  · rw [updateCredentials_unhashed hupdate hhash]
  · rw [updateCredentials_unconnected hupdate hhash hacquire]
  · rw [updateCredentials_sent hupdate hhash hacquire hexecute]
    rfl

/-- When the statement is performed, the answer tells whether it changed a row. -/
theorem updateCredentials_of_performs {changed : Nat}
    (h : r.Performs salt user password s changed) :
    (r.updateCredentials salt user password s).1 = .ok (decide (0 < changed)) := by
  obtain ⟨statement, hash, s₁, s₂, hupdate, hhash, hacquire, hexecute⟩ := h
  rw [updateCredentials_sent hupdate hhash hacquire hexecute]
  rfl

/-- Some stage fails, or the statement is performed. -/
theorem failsToStore_or_performs (r : Repository σ) (salt : Salt) (user password : String)
    (s : σ) :
    (∃ f, r.FailsToStore salt user password s f) ∨
      ∃ changed, r.Performs salt user password s changed := by
  obtain ⟨sent, h, -⟩ := r.updated salt user password s []
  generalize r.updateCredentials salt user password s = result at h
  cases h with
  | unconfigured hupdate => exact Or.inl ⟨_, Or.inl ⟨hupdate, rfl⟩⟩
  | unhashed hupdate hhash => exact Or.inl ⟨_, Or.inr ⟨_, hupdate, Or.inl hhash⟩⟩
  | unconnected hupdate hhash hacquire =>
      exact Or.inl ⟨_, Or.inr ⟨_, hupdate, Or.inr ⟨_, _, hhash, Or.inl hacquire⟩⟩⟩
  | refused hupdate hhash hacquire hexecute =>
      exact Or.inl ⟨_, Or.inr ⟨_, hupdate, Or.inr ⟨_, _, hhash, Or.inr ⟨hacquire, _, hexecute⟩⟩⟩⟩
  | performed hupdate hhash hacquire hexecute =>
      exact Or.inr ⟨_, _, _, _, _, hupdate, hhash, hacquire, hexecute⟩

/-- **Exactly the failures of the stages are returned.** -/
theorem updateCredentials_eq_error_iff {f : Failure} :
    (r.updateCredentials salt user password s).1 = .error f ↔
      r.FailsToStore salt user password s f := by
  refine ⟨fun h => ?_, updateCredentials_of_failsToStore⟩
  rcases r.failsToStore_or_performs salt user password s with ⟨f', hf⟩ | ⟨changed, hperforms⟩
  · rw [updateCredentials_of_failsToStore hf] at h
    exact Except.error.inj h ▸ hf
  · rw [updateCredentials_of_performs hperforms] at h
    cases h

/-- **The answer is yes exactly when the statement was performed and changed a row.** -/
theorem updateCredentials_eq_ok_iff {answer : Bool} :
    (r.updateCredentials salt user password s).1 = .ok answer ↔
      ∃ changed, r.Performs salt user password s changed ∧ answer = decide (0 < changed) := by
  constructor
  · intro h
    rcases r.failsToStore_or_performs salt user password s with ⟨f, hf⟩ | ⟨changed, hperforms⟩
    · rw [updateCredentials_of_failsToStore hf] at h
      cases h
    · rw [updateCredentials_of_performs hperforms] at h
      exact ⟨changed, hperforms, (Except.ok.inj h).symm⟩
  · rintro ⟨changed, hperforms, rfl⟩
    exact updateCredentials_of_performs hperforms

/-- What is seen of the state of a source changes only by statements that succeed: not when a
connection is taken, and not by a statement that fails. -/
structure ChangesBySuccess {δ : Type} (source : ConnectionSource σ) (view : σ → δ) : Prop where
  acquire : ∀ s, view (source.acquire s).2 = view s
  execute : ∀ statement values s f s',
    source.execute statement values s = (.error f, s') → view s' = view s

/-- **A password that could not be stored has changed nothing.** -/
theorem view_updateCredentials_of_error {δ : Type} {view : σ → δ}
    (hview : ChangesBySuccess r.source view) {f : Failure}
    (hf : (r.updateCredentials salt user password s).1 = .error f) :
    view (r.updateCredentials salt user password s).2 = view s := by
  have hacquired {a : Except Failure Unit} {s₁ : σ} (h : r.source.acquire s = (a, s₁)) :
      view s₁ = view s := by
    rw [← hview.acquire s, h]
  obtain ⟨sent, h, -⟩ := r.updated salt user password s []
  generalize r.updateCredentials salt user password s = result at h hf
  cases h with
  | unconfigured hupdate => rfl
  | unhashed hupdate hhash => rfl
  | unconnected hupdate hhash hacquire => exact hacquired hacquire
  | refused hupdate hhash hacquire hexecute =>
      exact (hview.execute _ _ _ _ _ hexecute).trans (hacquired hacquire)
  | performed hupdate hhash hacquire hexecute => cases hf

end Repository

end RealmDirectory
