import Mathlib.Data.List.Forall2
import RealmDirectory.Proofs.Directory.FailClosed

/-!
# What operations send

A repository has operations that answer questions about users, in two forms each, operations
on stored passwords, and two questions about permissions. Each of them sends at most one
statement to its database, and only storing a password sends a statement for changes. What
holds of one operation holds of every run of operations, statement by statement.

## Main definitions

* `Reading`, `Operation`: the operations of a repository.
* `Operation.after`, `Repository.afterAll`: the state behind an operation, and behind a run.

## Main results

* `Operation.exists_sent`, `Repository.exists_sent_afterAll`: what is sent.
* `Repository.credentials_fail_closed`: what callers of credential operations can rely on.
-/

namespace RealmDirectory

variable {σ : Type}

/-! ### Operations -/

/-- A question about the users of a directory. -/
inductive Reading where
  | users
  | count (c : Criteria)
  | matching (c : Criteria) (page : Option Page)
  | byId (id : String)
  | byUsername (username : String)
  | byEmail (email : String)

/-- An operation of a repository. -/
inductive Operation where
  /-- Answers a question, or reports a failure. -/
  | load (q : Reading)
  /-- Answers a question, failures as if the directory were empty. -/
  | find (q : Reading)
  | validate (username password : String)
  | update (salt : Salt) (username password : String)
  /-- Asks whether users may be removed. -/
  | removal
  /-- Asks whether users may be overwritten. -/
  | overwriting

/-- Whether an operation stores a password. -/
def Operation.IsUpdate : Operation → Prop
  | update _ _ _ => True
  | _ => False

/-- The state behind an operation that reports failures. -/
def Reading.loaded (r : Repository σ) : Reading → σ → σ
  | users, s => (r.loadUsers s).2
  | count c, s => (r.loadCount c s).2
  | matching c page, s => (r.loadMatching c page s).2
  | byId id, s => (r.loadById id s).2
  | byUsername username, s => (r.loadByUsername username s).2
  | byEmail email, s => (r.loadByEmail email s).2

/-- The state behind an operation that hides failures. -/
def Reading.found (r : Repository σ) : Reading → σ → σ
  | users, s => (r.getUsers s).2
  | count c, s => (r.getCount c s).2
  | matching c page, s => (r.findMatching c page s).2
  | byId id, s => (r.findById id s).2
  | byUsername username, s => (r.findByUsername username s).2
  | byEmail email, s => (r.findByEmail email s).2

/-- The state behind an operation. -/
def Operation.after (r : Repository σ) : Operation → σ → σ
  | load q, s => q.loaded r s
  | find q, s => q.found r s
  | validate username password, s => (r.validateCredentials username password s).2
  | update salt username password, s => (r.updateCredentials salt username password s).2
  | removal, s => s
  | overwriting, s => s

/-- Takes a connection and runs a statement for its rows. -/
def ConnectionSource.query (source : ConnectionSource σ) (statement : String)
    (values : List String) : Session σ (List Row) := do
  source.acquire
  source.fetch statement values

/-- The statement of a question, with its values. -/
def Reading.statement (r : Repository σ) : Reading → String × List String
  | users =>
      let q := r.search .empty
      (Page.paginate r.queries.dialect none q.query, q.values)
  | count c =>
      let q := r.countStatement c
      (Page.paginate r.queries.dialect none q.query, q.values)
  | matching c page =>
      let q := r.search c
      (Page.paginate r.queries.dialect page q.query, q.values)
  | byId id => (Page.paginate r.queries.dialect none r.queries.findById, [id])
  | byUsername username =>
      (Page.paginate r.queries.dialect none r.queries.findByUsername, [username])
  | byEmail email => (Page.paginate r.queries.dialect none r.queries.findByEmail, [email])

/-- A next operation that leaves the state alone leaves it as the first one did. -/
theorem Session.bind_snd {α β : Type} {f : α → Session σ β} (hf : ∀ a s, (f a s).2 = s)
    (x : Session σ α) (s : σ) : ((x >>= f) s).2 = (x s).2 := by
  rcases hx : x s with ⟨e | a, s₁⟩
  · rw [bind_error hx]
  · rw [bind_ok hx, hf]

/-- **A question is one query**, whether its failure is reported or not. -/
theorem Reading.loaded_eq (q : Reading) (r : Repository σ) (s : σ) :
    q.loaded r s = (r.source.query (q.statement r).1 (q.statement r).2 s).2 := by
  have hrecords (statement : String) (values : List String) (page : Option Page) :
      (r.loadRecords statement values page s).2 = (r.loadRows statement values page s).2 :=
    Session.bind_snd (fun _ _ => rfl) _ s
  have hfirst (statement value : String) :
      (r.loadFirst statement value s).2 = (r.loadRows statement [value] none s).2 :=
    (Session.bind_snd (fun _ _ => rfl) _ s).trans (hrecords _ _ _)
  cases q with
  | users => exact hrecords _ _ _
  | count c => exact Session.bind_snd (fun _ _ => rfl) _ s
  | matching c page => exact hrecords _ _ _
  | byId id => exact hfirst _ _
  | byUsername username => exact hfirst _ _
  | byEmail email => exact hfirst _ _

theorem Reading.found_eq (q : Reading) (r : Repository σ) (s : σ) :
    q.found r s = q.loaded r s := by
  cases q <;> exact congrArg Prod.snd (Repository.orElse_eq _ _ s)

/-- **A query sends its statement, or nothing** when there is no connection. -/
theorem ConnectionSource.exists_query_recorded (source : ConnectionSource σ) (statement : String)
    (values : List String) (s : σ) (log : List Call) :
    ∃ sent, (source.recorded.query statement values (s, log)).2 =
        ((source.query statement values s).2, log ++ sent) ∧
      (sent = [] ∨ sent = [⟨.rows, statement, values⟩]) := by
  have hacquired := Repository.acquire_recorded source s log
  rcases hacquire : source.acquire s with ⟨f | _, s₁⟩
  · rw [hacquire] at hacquired
    rw [query, query, Session.bind_error hacquire, Session.bind_error hacquired]
    exact ⟨[], by simp, Or.inl rfl⟩
  · rw [hacquire] at hacquired
    rw [query, query, Session.bind_ok hacquire, Session.bind_ok hacquired,
      Repository.fetch_recorded]
    exact ⟨_, rfl, Or.inr rfl⟩

/-- **What one operation sends**: at most one statement, which is for changes only when a
password is stored. The record changes nothing else. -/
theorem Operation.exists_sent (op : Operation) (r : Repository σ) (s : σ) (log : List Call) :
    ∃ sent, op.after r.recorded (s, log) = (op.after r s, log ++ sent) ∧ sent.length ≤ 1 ∧
      ∀ call ∈ sent, call.purpose = .changes → op.IsUpdate := by
  have hquery (statement : String) (values : List String) :
      ∃ sent, (r.recorded.source.query statement values (s, log)).2 =
          ((r.source.query statement values s).2, log ++ sent) ∧ sent.length ≤ 1 ∧
        ∀ call ∈ sent, call.purpose = .changes → op.IsUpdate := by
    obtain ⟨sent, heq, rfl | rfl⟩ := r.source.exists_query_recorded statement values s log
    · exact ⟨[], heq, Nat.zero_le 1, fun call hcall => absurd hcall List.not_mem_nil⟩
    · refine ⟨_, heq, Nat.le_refl 1, fun call hcall hpurpose => ?_⟩
      rw [List.mem_singleton.mp hcall] at hpurpose
      cases hpurpose
  have hsame (q : Reading) : q.statement r.recorded = q.statement r := by cases q <;> rfl
  cases op with
  | load q =>
      simp only [after, Reading.loaded_eq, hsame]
      exact hquery _ _
  | find q =>
      simp only [after, Reading.found_eq, Reading.loaded_eq, hsame]
      exact hquery _ _
  | validate username password =>
      simp only [after, Repository.validateCredentials_snd]
      exact hquery _ _
  | update salt username password =>
      obtain ⟨sent, hupdated, heq⟩ := r.updated salt username password s log
      refine ⟨sent, congrArg Prod.snd heq, ?_, fun call _ _ => trivial⟩
      rcases hupdated.sent_cases with rfl | ⟨_, _, _, -, -, -, rfl⟩
      · exact Nat.zero_le 1
      · exact Nat.le_refl 1
  | removal => exact ⟨[], by simp [after], Nat.zero_le 1, by simp⟩
  | overwriting => exact ⟨[], by simp [after], Nat.zero_le 1, by simp⟩

/-! ### Runs -/

namespace Repository

/-- The state behind a run of operations. -/
def afterAll (r : Repository σ) (ops : List Operation) (s : σ) : σ :=
  ops.foldl (fun s op => op.after r s) s

/-- **What a run of operations sends**, operation by operation. -/
theorem exists_sent_afterAll (r : Repository σ) (ops : List Operation) (s : σ)
    (log : List Call) :
    ∃ sent : List (List Call),
      r.recorded.afterAll ops (s, log) = (r.afterAll ops s, log ++ sent.flatten) ∧
        List.Forall₂ (fun op calls => calls.length ≤ 1 ∧
          ∀ call ∈ calls, call.purpose = .changes → op.IsUpdate) ops sent := by
  induction ops generalizing s log with
  | nil => exact ⟨[], by simp [afterAll], .nil⟩
  | cons op ops ih =>
      obtain ⟨calls, hop, hone⟩ := op.exists_sent r s log
      obtain ⟨sent, hops, hall⟩ := ih (op.after r s) (log ++ calls)
      refine ⟨calls :: sent, ?_, .cons hone hall⟩
      rw [List.flatten_cons, ← List.append_assoc]
      exact (congrArg (r.recorded.afterAll ops) hop).trans hops

/-- **What callers of credential operations can rely on**, whatever the database does:

1. a check says yes exactly when a stored text was read that accepts the password; it fails
   exactly when the engine fails on the text that was read; and without such a text it says no;
2. storing a password sends its one statement only when there is one, the password is hashed
   and a connection is acquired; exactly the failures of the stages are returned, and what the
   database shows is then as before; and the answer is yes exactly when the statement succeeds
   and changes a row;
3. over any run of operations, each sends at most one statement, and only storing a password
   sends a change. -/
theorem credentials_fail_closed (r : Repository σ) :
    (∀ user password s,
      ((r.validateCredentials user password s).1 = .ok true ↔
        ∃ hash, r.Reads user s hash ∧ r.queries.engine.verify hash password = .ok true) ∧
      (∀ f, (r.validateCredentials user password s).1 = .error f ↔
        ∃ hash, r.Reads user s hash ∧ r.queries.engine.verify hash password = .error f) ∧
      ((∀ hash, ¬ r.Reads user s hash) →
        (r.validateCredentials user password s).1 = .ok false)) ∧
    (∀ salt user password s,
      (∀ log, ∃ sent, (r.recorded.updateCredentials salt user password (s, log)).2 =
          ((r.updateCredentials salt user password s).2, log ++ sent) ∧
        (sent = [] ∨ ∃ statement hash s₁, r.queries.updatePassword = some statement ∧
          r.queries.engine.hash salt password = .ok hash ∧ r.source.acquire s = (.ok (), s₁) ∧
            sent = [⟨.changes, statement, [hash, user]⟩])) ∧
      (∀ f, (r.updateCredentials salt user password s).1 = .error f ↔
        r.FailsToStore salt user password s f) ∧
      (∀ f, (r.updateCredentials salt user password s).1 = .error f →
        (∀ changed, ¬ r.Performs salt user password s changed) ∧
        ∀ (δ : Type) (view : σ → δ), ChangesBySuccess r.source view →
          view (r.updateCredentials salt user password s).2 = view s) ∧
      ((r.updateCredentials salt user password s).1 = .ok true ↔
        ∃ changed, r.Performs salt user password s changed ∧ 0 < changed)) ∧
    ∀ ops s log, ∃ sent : List (List Call),
      r.recorded.afterAll ops (s, log) = (r.afterAll ops s, log ++ sent.flatten) ∧
        List.Forall₂ (fun op calls => calls.length ≤ 1 ∧
          ∀ call ∈ calls, call.purpose = .changes → op.IsUpdate) ops sent := by
  refine ⟨fun user password s => ⟨validateCredentials_eq_iff nofun,
      fun f => validateCredentials_eq_iff nofun, validateCredentials_of_not_reads⟩,
    fun salt user password s => ⟨fun log => ?_, fun f => updateCredentials_eq_error_iff,
      fun f hf => ⟨fun changed hperforms => ?_,
        fun δ view hview => view_updateCredentials_of_error hview hf⟩, ?_⟩,
    r.exists_sent_afterAll⟩
  · obtain ⟨sent, hupdated, heq⟩ := r.updated salt user password s log
    exact ⟨sent, congrArg Prod.snd heq, hupdated.sent_cases⟩
  · rw [updateCredentials_of_performs hperforms] at hf
    cases hf
  · simp only [updateCredentials_eq_ok_iff, eq_comm (a := true), decide_eq_true_eq]

/-- A database that refuses changes: a password that could be hashed is not stored, the refusal
is returned, and the user who had no password still has none that is right. -/
theorem credentials_fail_closed_read_only :
    let refusal : Failure := .database "attempt to write a readonly database"
    let source : ConnectionSource (KeyedList String (Option String)) :=
      { tableSource with execute := fun _ _ t => (.error refusal, t) }
    let templates : Templates :=
      { base := "select {columns} from users where {filters}"
        findPasswordHash := "select pwd from users where login = ?"
        updatePassword := some "update users set pwd = ? where login = ?" }
    let engine : HashEngine := { algorithm := .pbkdf2 }
    let r : Repository (KeyedList String (Option String)) :=
      ⟨source, TemplateSet.ofTemplates templates .empty engine .sqlite false false⟩
    let salt : Salt := Vector.replicate 16 7
    let s : KeyedList String (Option String) := KeyedList.ofList [("ALICE", none)]
    ChangesBySuccess r.source id ∧
      (r.updateCredentials salt "ALICE" "first" s).1 = .error refusal ∧
      (r.updateCredentials salt "ALICE" "first" s).2 = s ∧
      (r.validateCredentials "ALICE" "first" s).1 = .ok false := by
  intro refusal source templates engine r salt s
  obtain ⟨hvalidate, hupdate, -⟩ := credentials_fail_closed r
  obtain ⟨-, hfails, hunchanged, -⟩ := hupdate salt "ALICE" "first" s
  have hview : ChangesBySuccess r.source id :=
    { acquire := fun _ => rfl
      execute := fun _ _ _ _ _ h => (Prod.mk.inj h).2.symm }
  have husable : engine.check = .ok () := rfl
  obtain ⟨hash, hhash⟩ : ∃ hash, engine.hash salt "first" = .ok hash :=
    HashEngine.exists_hash husable salt fun _ h => nomatch h
  have herror : (r.updateCredentials salt "ALICE" "first" s).1 = .error refusal := by
    refine (hfails refusal).mpr (Or.inr ⟨_, rfl, Or.inr ⟨hash, s, hhash, Or.inr ⟨rfl, s, rfl⟩⟩⟩)
  refine ⟨hview, herror, (hunchanged refusal herror).2 _ id hview, ?_⟩
  refine (hvalidate "ALICE" "first" s).2.2 fun hash => ?_
  rintro ⟨s₁, rows, s₂, hacquire, hfetch, hrow, -⟩
  obtain rfl : s = s₁ := (Prod.mk.inj hacquire).2
  have hlooked : r.source.fetch r.queries.findPasswordHash ["ALICE"] s =
      (.ok [⟨[("pwd", none)]⟩], s) := rfl
  rw [hlooked] at hfetch
  obtain rfl := Except.ok.inj (Prod.mk.inj hfetch).1
  cases hrow

end Repository

end RealmDirectory
