import RealmDirectory.Http.Respond
import RealmDirectory.Proofs.Directory.History
import RealmDirectory.Proofs.Directory.Sending

/-!
# What requests do to a service

A service is a registry with the databases of its pools. The operations of a repository work on a
database and leave the registry alone, so all that a request can do to the registry is to ask it
for the instance of a realm. Hence a service stays consistent through any history of requests, new
configurations and closes, and the repository that a known realm is answered from was made from
the configuration that is stored for it.

## Main definitions

* `Service.started`: the service behind a call for the instance of a realm.
* `Service.Reached`: the services that come about from configured realms.

## Main results

* `registry_after`: the operations of a repository leave the registry alone.
* `respond_registry`: what a request does to the registry.
* `Reached.isConsistent`: every service that comes about is consistent.
* `repository_of_known`: the repository of a known realm.
-/

namespace RealmDirectory.Service

variable {s : Service} {id : String} {i : Instance} {f : Failure}

/-! ### Databases -/

/-- A statement changes a database, and nothing else. -/
theorem registry_run {α : Type} (source : Nat) (onFault : Sql.Fault → Failure)
    (command : Pool → Sql.Database → Except Sql.Fault α × Sql.Database) (s : Service) :
    (run source onFault command s).2.registry = s.registry := by
  rw [run]
  cases (s.registry.source source).acquire <;> rfl

theorem registry_query (source : Nat) (statement : String) (values : List String) (s : Service) :
    ((connections source).query statement values s).2.registry = s.registry := by
  rcases hacquire : (connections source).acquire s with ⟨e | _, s₁⟩
  all_goals obtain rfl : s = s₁ := (Prod.mk.inj hacquire).2
  · rw [ConnectionSource.query, Session.bind_error hacquire]
  · rw [ConnectionSource.query, Session.bind_ok hacquire]
    exact registry_run _ _ _ _

theorem registry_execute (source : Nat) (statement : String) (values : List String)
    (s : Service) : ((connections source).execute statement values s).2.registry = s.registry :=
  registry_run _ _ _ s

/-- **The operations of a repository leave the registry alone.** -/
theorem registry_after (op : Operation) (i : Instance) (s : Service) :
    (op.after (repositoryOf i) s).registry = s.registry := by
  cases op with
  | load q =>
      rw [Operation.after, Reading.loaded_eq]
      exact registry_query _ _ _ s
  | find q =>
      rw [Operation.after, Reading.found_eq, Reading.loaded_eq]
      exact registry_query _ _ _ s
  | validate username password =>
      rw [Operation.after, Repository.validateCredentials_snd]
      exact registry_query _ _ _ s
  | update salt username password =>
      obtain ⟨sent, hupdated, -⟩ := (repositoryOf i).updated salt username password s []
      rw [Operation.after]
      generalize (repositoryOf i).updateCredentials salt username password s = result at hupdated ⊢
      cases hupdated with
      | unconfigured hupdate => rfl
      | unhashed hupdate hhash => rfl
      | unconnected hupdate hhash hacquire => rw [← (Prod.mk.inj hacquire).2]
      | refused hupdate hhash hacquire hexecute | performed hupdate hhash hacquire hexecute =>
          obtain rfl := (Prod.mk.inj hacquire).2
          exact (congrArg (·.2.registry) hexecute).symm.trans (registry_execute _ _ _ s)
  | removal => rfl
  | overwriting => rfl

/-! ### Realms -/

/-- The service behind a call for the instance of a realm. -/
def started (s : Service) (id : String) : Service :=
  { s with registry := (s.registry.getOrConfigure reply id).2 }

theorem repository_of_ok (h : (s.registry.getOrConfigure reply id).1 = .ok i) :
    repository id s = (.ok (repositoryOf i), s.started id) := by
  have hget : getOrConfigure id s = (.ok i, s.started id) := Prod.ext h rfl
  exact Session.bind_ok hget

theorem repository_of_error (h : (s.registry.getOrConfigure reply id).1 = .error f) :
    repository id s = (.error f, s.started id) := by
  have hget : getOrConfigure id s = (.error f, s.started id) := Prod.ext h rfl
  exact Session.bind_error hget

/-- An operation on the repository of a realm leaves the registry as the call for the instance
of the realm does, when it works on databases only. -/
theorem registry_repository_bind {α : Type} {operation : Repository Service → Session Service α}
    (h : ∀ i s', (operation (repositoryOf i) s').2.registry = s'.registry) (id : String)
    (s : Service) : ((repository id >>= operation) s).2.registry = (s.started id).registry := by
  cases hresult : (s.registry.getOrConfigure reply id).1 with
  | error f => rw [Session.bind_error (repository_of_error hresult)]
  | ok i => rw [Session.bind_ok (repository_of_ok hresult), h]

/-! ### Requests -/

/-- The response of an operation is its own, or the one to its failure. -/
theorem settle_eq (operation : Session Service Response) (s : Service) :
    settle operation s =
      (match (operation s).1 with
        | .ok response => response
        | .error f => .ofFailure f, (operation s).2) := by
  simp only [settle, bind, StateT.bind, ExceptT.run]
  rcases operation s with ⟨_ | response, s'⟩ <;> rfl

/-- A registry is left alone, or is asked for the instance of a realm. -/
def AsksAtMost (r r' : Registry) : Prop := r' = r ∨ ∃ id, r' = (r.getOrConfigure reply id).2

/-- An operation that settles asks for what it asks for. -/
theorem AsksAtMost.settle {operation : Session Service Response}
    (h : AsksAtMost s.registry (operation s).2.registry) :
    AsksAtMost s.registry (settle operation s).2.registry := by
  rw [settle_eq]
  exact h

/-- A search that cannot be read asks for nothing. -/
theorem asksAtMost_search {fields : KeyedList String String}
    {operation : Search → Repository Service → Session Service Response} {realm : String}
    (h : ∀ search i s', (operation search (repositoryOf i) s').2.registry = s'.registry)
    (s : Service) :
    AsksAtMost s.registry
      ((Session.ofExcept (Search.ofFields fields) >>= fun search =>
        repository realm >>= operation search) s).2.registry := by
  rcases hsearch : Search.ofFields fields with f | search
  · have hfailed : Session.ofExcept (.error f : Except Failure Search) s = (.error f, s) := rfl
    rw [Session.bind_error hfailed]
    exact .inl rfl
  · rw [Session.ofExcept_ok_bind, registry_repository_bind (h search)]
    exact .inr ⟨realm, rfl⟩

theorem asksAtMost_listUsers (realm : String) (fields : KeyedList String String) (s : Service) :
    AsksAtMost s.registry (listUsers realm fields s).2.registry := by
  refine asksAtMost_search (fun search i s' => ?_) s
  split
  · exact registry_after (.find .users) i s'
  · exact registry_after (.find (.matching _ _)) i s'

theorem asksAtMost_countUsers (realm : String) (fields : KeyedList String String) (s : Service) :
    AsksAtMost s.registry (countUsers realm fields s).2.registry :=
  asksAtMost_search (fun _ i s' => registry_after (.find (.count _)) i s') s

theorem asksAtMost_findUser (realm wanted : String) (q : Reading)
    {find : Repository Service → String → StateM Service (Option UserRecord)}
    (hfind : ∀ r s', (find r wanted s').2 = q.found r s') (s : Service) :
    AsksAtMost s.registry (findUser realm wanted find s).2.registry := by
  refine .inr ⟨realm, registry_repository_bind (fun i s' => ?_) realm s⟩
  refine (congrArg registry (Session.bind_snd (fun u _ => ?_) _ s')).trans ?_
  · cases u <;> rfl
  · exact (congrArg registry (hfind _ s')).trans (registry_after (.find q) i s')

theorem asksAtMost_withCredentials (request : Request)
    {operation : Credentials → Session Service Response}
    (h : ∀ c, AsksAtMost s.registry (operation c s).2.registry) :
    AsksAtMost s.registry (withCredentials request operation s).2.registry := by
  rw [withCredentials]
  split
  · exact .inl rfl
  · rcases Credentials.read request.body with (_ | _) | c
    · exact .inl rfl
    · exact .inl rfl
    · exact (h c).settle

/-- What is asked for to answer a request for a resource. -/
theorem asksAtMost_answer (salt : Salt) (request : Request) (realm : String) (resource : Resource)
    (s : Service) : AsksAtMost s.registry (answer salt request realm resource s).2.registry := by
  cases resource with
  | users => exact (asksAtMost_listUsers realm _ s).settle
  | count => exact (asksAtMost_countUsers realm _ s).settle
  | user id =>
      rw [answer]
      split
      · exact AsksAtMost.settle (.inr ⟨realm, registry_repository_bind (fun _ _ => rfl) realm s⟩)
      · exact (asksAtMost_findUser realm id (.byId id) (fun _ _ => rfl) s).settle
  | byUsername username =>
      exact (asksAtMost_findUser realm username (.byUsername username) (fun _ _ => rfl) s).settle
  | byEmail email =>
      exact (asksAtMost_findUser realm email (.byEmail email) (fun _ _ => rfl) s).settle
  | validation =>
      refine asksAtMost_withCredentials request fun c =>
        .inr ⟨realm, registry_repository_bind (fun i s' => ?_) realm s⟩
      refine (congrArg registry (Session.bind_snd (fun _ _ => rfl) _ s')).trans ?_
      exact registry_after (.validate c.username c.password) i s'
  | credentials =>
      refine asksAtMost_withCredentials request fun c => ?_
      rw [update]
      split
      · exact .inl rfl
      · refine .inr ⟨realm, registry_repository_bind (fun i s' => ?_) realm s⟩
        refine (congrArg registry (Session.bind_snd (fun _ _ => rfl) _ s')).trans ?_
        exact registry_after (.update salt c.username c.password) i s'

/-- The response to a request, with the state behind it. -/
theorem respond_eq (salt : Salt) (request : Request) (s : Service) :
    respond salt request s =
      (if request.method = .head then (respondFully salt request s).1.withoutBody
        else (respondFully salt request s).1, (respondFully salt request s).2) := rfl

/-- **What a request does to the registry**: it asks at most for the instance of one realm. -/
theorem respond_registry (salt : Salt) (request : Request) (s : Service) :
    AsksAtMost s.registry (respond salt request s).2.registry := by
  rw [respond_eq, respondFully]
  rcases Route.pattern? request.target.path with _ | pattern
  · exact .inl rfl
  dsimp only
  cases allows request.method (resourceOf pattern) with
  | false => exact .inl rfl
  | true =>
      rcases Route.ofPattern? pattern with _ | route
      · exact .inl rfl
      · exact asksAtMost_answer salt request route.realm route.resource s

/-! ### Histories -/

/-- The services that come about from configured realms: requests are answered, realms are
configured afresh, and everything is closed. -/
inductive Reached (realms : List RealmConfig) : Service → Prop where
  | start : Reached realms (ofRealms realms)
  | respond {before : Service} (salt : Salt) (request : Request)
      (h : Reached realms before) : Reached realms (respond salt request before).2
  | reconfigure {before : Service} (realm : RealmConfig) (h : Reached realms before) :
      Reached realms (reconfigure realm before).2
  | close {before : Service} (h : Reached realms before) : Reached realms before.close

/-- **Every service that comes about is consistent.** Whatever happens to it is a whole call on
its registry, or none. -/
theorem Reached.isConsistent {realms : List RealmConfig} (h : Reached realms s) :
    s.registry.IsConsistent [] := by
  induction h with
  | start => exact Registry.isConsistent_ofRealms realms
  | @respond before salt request _ ih =>
      rcases respond_registry salt request before with hsame | ⟨id, hasked⟩
      · rw [hsame]
        exact ih
      · rw [hasked]
        exact ih.serve reply (.get id)
  | reconfigure realm _ ih => exact ih.serve reply (.validate realm)
  | close _ ih => exact ih.serve reply .close

/-- **The repository of a known realm** is made from the configuration that is stored for it,
unless the realm does not run and cannot be opened. -/
theorem repository_of_known (h : s.registry.IsConsistent []) {realm : RealmConfig}
    (hknown : s.registry.realms.get? id = some realm) :
    (∃ f, (s.registry.openInstance reply realm).1 = .error f ∧
        repository id s = (.error f, s.started id)) ∨
      ∃ i, i.realm = realm ∧ realm.templateSet = .ok i.queries ∧
        repository id s = (.ok (repositoryOf i), s.started id) := by
  cases hrunning : s.registry.running id with
  | some i =>
      obtain ⟨hrealm, hqueries, -⟩ := h.current hrunning
      obtain rfl : i.realm = realm := Option.some.inj (hrealm.symm.trans hknown)
      refine .inr ⟨i, rfl, hqueries, repository_of_ok ?_⟩
      rw [Registry.getOrConfigure_running hrunning]
  | none =>
      rcases Registry.openInstance_cases reply realm s.registry with
        ⟨f, hopen⟩ | ⟨i, source, hopen, hrealm, -, hi⟩
      · refine .inl ⟨f, by rw [hopen], repository_of_error ?_⟩
        rw [Registry.getOrConfigure_of_error h.slots hknown hrunning hopen]
      · refine .inr ⟨i, hrealm, hrealm ▸ hi.1, repository_of_ok ?_⟩
        rw [Registry.getOrConfigure_of_ok h.slots hknown hrunning hopen]

end RealmDirectory.Service
