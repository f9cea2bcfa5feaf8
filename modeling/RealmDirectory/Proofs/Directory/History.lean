import Mathlib.Data.List.Induction
import RealmDirectory.Proofs.Directory.Consistency

/-!
# Calls on a registry, one after the other

A registry is called any number of times, each call over before the next one starts, and
each with databases of its own mood. This module follows such a history from the realms as
they are configured at first. What holds at every moment of it is the consistency of the
registry; what a single call can do to what runs is read off the cases of that call.

## Main definitions

* `Registry.History`: a registry with the calls on it so far, and what they returned.
* `Registry.lastAccepted`: the configuration that was accepted last for a realm.

## Main results

* `IsConsistent.after`: a registry is consistent at every moment of its history.
* `IsConsistent.get?_realms_after`: the stored configurations.
* `IsConsistent.running_after`: an instance runs until its realm is configured afresh, or all
  are closed.
* `history_sound`: what callers can rely on.
-/

namespace RealmDirectory.Registry

/-! ### Histories -/

/-- A registry and the calls on it so far, with what they returned. -/
structure History where
  registry : Registry
  log : List (Request × Outcome) := []

/-- One more call, and what the databases say to it. -/
def History.next (h : History) (e : Request × (Backend → Reply)) : History where
  registry := (e.1.serve e.2 h.registry).2
  log := h.log ++ [(e.1, (e.1.serve e.2 h.registry).1)]

/-- The history of calls on a registry. -/
def after (r : Registry) (calls : List (Request × (Backend → Reply))) : History :=
  calls.foldl History.next { registry := r }

theorem after_concat (r : Registry) (calls : List (Request × (Backend → Reply)))
    (e : Request × (Backend → Reply)) : r.after (calls ++ [e]) = (r.after calls).next e := by
  rw [after, List.foldl_append]
  rfl

variable {r : Registry} {id : String} {i : Instance} {reply : Backend → Reply}

/-- **A registry is consistent at every moment of its history.** -/
theorem IsConsistent.after (h : r.IsConsistent []) (calls : List (Request × (Backend → Reply))) :
    (r.after calls).registry.IsConsistent [] := by
  induction calls using List.reverseRecOn with
  | nil => exact h
  | append_singleton calls e ih =>
      rw [after_concat]
      exact ih.serve e.2 e.1

/-! ### What a call leaves alone -/

/-- Closing stores no configuration, and no data source is lost. -/
theorem realms_retireSlots (slots : List Nat) (r : Registry) :
    (slots.foldl retireSlot r).realms = r.realms ∧
      (slots.foldl retireSlot r).sources.length = r.sources.length := by
  induction slots generalizing r with
  | nil => exact ⟨rfl, rfl⟩
  | cons slot slots ih =>
      rw [List.foldl_cons, (ih _).1, (ih _).2, retireSlot_eq, realms_retireInstance,
        length_sources_retireInstance]
      exact ⟨rfl, rfl⟩

theorem install_eq (r : Registry) (id : String) (i : Instance) :
    (r.install id i).realms = r.realms ∧ (r.install id i).sources = r.sources := by
  rw [install]
  cases r.slots.get? id <;> exact ⟨rfl, rfl⟩

/-! ### One call -/

/-- The configuration that a call brought, if it was accepted. -/
def accepted : Request × Outcome → Option RealmConfig
  | (.validate realm, some (.ok _)) => some realm
  | _ => none

/-- Whether a call ends what runs for a realm: the realm was configured afresh, or everything
was closed. -/
def ends (id : String) : Request × Outcome → Bool
  | (.close, _) => true
  | (.validate realm, some (.ok _)) => realm.id = id
  | _ => false

/-- **Only an accepted configuration is stored**, under its own identifier. -/
theorem HasProperSlots.get?_realms_serve (h : r.HasProperSlots) (reply : Backend → Reply)
    (q : Request) (id : String) :
    (q.serve reply r).2.realms.get? id =
      ((accepted (q, (q.serve reply r).1)).filter fun realm => realm.id = id).or
        (r.realms.get? id) := by
  have hserved := h.served reply q
  generalize q.serve reply r = result at hserved ⊢
  cases hserved with
  | running hrunning => rfl
  | unknown hrealm => rfl
  | failed hrealm hrunning hopen => exact congrArg (·.get? id) (r.claim_eq _).1
  | opened hrealm hrunning hopen hsource hi => exact congrArg (·.get? id) (install_eq _ _ _).1
  | refused => rfl
  | @accepted i s hsource hi =>
      rw [realms_retireInstance, (places_adopt (h.addSource s) i).realms]
      simp only [accepted, Option.filter_some, decide_eq_true_eq, eq_comm (a := id)]
      split <;> rfl
  | closed => exact congrArg (·.get? id) (realms_retireSlots _ _).1

/-- **A failed call changes neither what runs nor what is stored**, and no data source is
opened or closed by it. -/
theorem HasProperSlots.serve_of_error (h : r.HasProperSlots) {q : Request} {f : Failure}
    (hf : (q.serve reply r).1 = some (.error f)) :
    (∀ id, (q.serve reply r).2.running id = r.running id) ∧
      (q.serve reply r).2.realms = r.realms ∧ (q.serve reply r).2.sources = r.sources ∧
        (q.serve reply r).2.retired = r.retired := by
  have hserved := h.served reply q
  generalize q.serve reply r = result at hserved hf ⊢
  cases hserved with
  | running hrunning => cases hf
  | unknown hrealm => exact ⟨fun id => rfl, rfl, rfl, rfl⟩
  | failed hrealm hrunning hopen => exact ⟨running_claim h _, r.claim_eq _⟩
  | opened hrealm hrunning hopen hsource hi => cases hf
  | refused => exact ⟨fun id => rfl, rfl, rfl, rfl⟩
  | accepted hsource hi => cases hf
  | closed => cases hf

/-- **An instance runs on**, unless its realm is configured afresh or everything is closed. -/
theorem HasProperSlots.running_serve (h : r.HasProperSlots) (hi : r.running id = some i)
    {q : Request} (hq : ends id (q, (q.serve reply r).1) = false) :
    (q.serve reply r).2.running id = some i := by
  have hserved := h.served reply q
  generalize q.serve reply r = result at hserved hq ⊢
  cases hserved with
  | running hrunning => exact hi
  | unknown hrealm => exact hi
  | failed hrealm hrunning hopen => exact (running_claim h _ id).trans hi
  | @opened id' j s hrealm hrunning hopen hsource hj =>
      have hne : id ≠ id' := by
        rintro rfl
        rw [hi] at hrunning
        cases hrunning
      exact ((places_install (h.addSource s) hrealm).running id).trans ((if_neg hne).trans hi)
  | refused => exact hi
  | @accepted j s hsource hj =>
      have hne : id ≠ j.realm.id := fun heq => of_decide_eq_false hq heq.symm
      rw [running_retireInstance, (places_adopt (h.addSource s) j).running, if_neg hne]
      exact hi
  | closed => cases hq

/-- **The instance that a call returns runs behind it**: for the realm that was asked for, or
for the realm that was configured. -/
theorem HasProperSlots.running_of_serve (h : r.HasProperSlots) {q : Request}
    (hi : (q.serve reply r).1 = some (.ok i)) :
    ∃ id, (q = .get id ∨ q = .validate i.realm ∧ id = i.realm.id) ∧
      (q.serve reply r).2.running id = some i := by
  have hserved := h.served reply q
  generalize q.serve reply r = result at hserved hi ⊢
  cases hserved with
  | @running id j hrunning =>
      obtain rfl := Except.ok.inj (Option.some.inj hi)
      exact ⟨id, Or.inl rfl, hrunning⟩
  | unknown hrealm => cases hi
  | failed hrealm hrunning hopen => cases hi
  | @opened id j s hrealm hrunning hopen hsource hj =>
      obtain rfl := Except.ok.inj (Option.some.inj hi)
      have hplaced := (places_install (h.addSource s) hrealm).running id
      exact ⟨id, Or.inl rfl, hplaced.trans (if_pos rfl)⟩
  | refused => cases hi
  | @accepted j s hsource hj =>
      obtain rfl := Except.ok.inj (Option.some.inj hi)
      refine ⟨j.realm.id, Or.inr ⟨rfl, rfl⟩, ?_⟩
      rw [running_retireInstance, (places_adopt (h.addSource s) j).running, if_pos rfl]
  | closed => cases hi

/-- No call forgets a data source. -/
theorem HasProperSlots.length_sources_le_serve (h : r.HasProperSlots) (reply : Backend → Reply)
    (q : Request) : r.sources.length ≤ (q.serve reply r).2.sources.length := by
  have hadd (s : DataSource) : r.sources.length ≤ (r.addSource s).sources.length := by
    rw [length_addSource]
    exact Nat.le_succ _
  have hserved := h.served reply q
  generalize q.serve reply r = result at hserved ⊢
  cases hserved with
  | running hrunning => exact Nat.le_refl _
  | unknown hrealm => exact Nat.le_refl _
  | failed hrealm hrunning hopen => exact Nat.le_of_eq (congrArg _ (r.claim_eq _).2.1.symm)
  | @opened _ _ s hrealm hrunning hopen hsource hi =>
      rw [(install_eq _ _ _).2]
      exact hadd s
  | refused => exact Nat.le_refl _
  | @accepted _ s hsource hi =>
      rw [length_sources_retireInstance]
      exact hadd s
  | closed =>
      have hsame :=
        (realms_retireSlots (r.slots.entries.map Prod.snd) { r with slots := .empty }).2
      exact Nat.le_of_eq hsame.symm

/-- The instance of a realm runs behind a call that returned it. -/
theorem HasProperSlots.running_getOrConfigure (h : r.HasProperSlots)
    (hi : (r.getOrConfigure reply id).1 = .ok i) :
    (r.getOrConfigure reply id).2.running id = some i := by
  have hserve : (Request.serve reply r (.get id)).1 = some (.ok i) := congrArg some hi
  obtain ⟨id', hid | ⟨hget, -⟩, hrunning⟩ := h.running_of_serve hserve
  · obtain rfl := Request.get.inj hid
    exact hrunning
  · cases hget

/-- **A call that failed is made up for by the next one**, which opens the realm as if there
had been none before. -/
theorem IsConsistent.getOrConfigure_again (h : r.IsConsistent []) {realm : RealmConfig}
    (hrealm : r.realms.get? id = some realm) {f : Failure}
    (hf : (r.getOrConfigure reply id).1 = .error f) (reply' : Backend → Reply) :
    ((r.getOrConfigure reply id).2.getOrConfigure reply' id).1 =
      (r.openInstance reply' realm).1 := by
  have hnone : r.running id = none := by
    cases hrunning : r.running id with
    | none => rfl
    | some j =>
        rw [getOrConfigure_running hrunning] at hf
        cases hf
  have hfailed : (Request.serve reply r (.get id)).1 = some (.error f) := congrArg some hf
  obtain ⟨hrunning, hrealms, hsources, -⟩ := h.slots.serve_of_error hfailed
  have hslots : (r.getOrConfigure reply id).2.HasProperSlots := (h.serve reply (.get id)).slots
  simp only [Request.serve] at hrunning hrealms hsources
  generalize (r.getOrConfigure reply id).2 = r' at hslots hrunning hrealms hsources ⊢
  have hsame : (r'.openInstance reply' realm).1 = (r.openInstance reply' realm).1 := by
    rw [openInstance_congr hsources]
  have hknown : r'.realms.get? id = some realm := by rw [hrealms, hrealm]
  have hempty : r'.running id = none := (hrunning id).trans hnone
  rw [← hsame]
  rcases openInstance_cases reply' realm r' with ⟨f', hopen⟩ | ⟨i, s, hopen, -, -, -⟩
  · rw [getOrConfigure_of_error hslots hknown hempty hopen, hopen]
  · rw [getOrConfigure_of_ok hslots hknown hempty hopen, hopen]

/-! ### All calls -/

/-- The configuration that was accepted last for a realm. -/
def lastAccepted (id : String) (log : List (Request × Outcome)) : Option RealmConfig :=
  ((log.filterMap accepted).filter fun realm => realm.id = id).getLast?

theorem lastAccepted_concat (id : String) (log : List (Request × Outcome))
    (e : Request × Outcome) :
    lastAccepted id (log ++ [e]) =
      ((accepted e).filter fun realm => realm.id = id).or (lastAccepted id log) := by
  have hlast : (([e].filterMap accepted).filter fun realm => realm.id = id).getLast? =
      (accepted e).filter fun realm => realm.id = id := by
    cases h : accepted e with
    | none => simp [h]
    | some realm =>
        by_cases hid : realm.id = id
        · simp [h, hid, Option.filter_some]
        · simp [h, hid, Option.filter_some]
  rw [lastAccepted, List.filterMap_append, List.filter_append, List.getLast?_append, hlast]
  rfl

/-- **The stored configuration of a realm** is the one that was accepted last, or else the
one that was there at first. -/
theorem IsConsistent.get?_realms_after (h : r.IsConsistent [])
    (calls : List (Request × (Backend → Reply))) (id : String) :
    (r.after calls).registry.realms.get? id =
      (lastAccepted id (r.after calls).log).or (r.realms.get? id) := by
  induction calls using List.reverseRecOn with
  | nil => rfl
  | append_singleton calls e ih =>
      rw [after_concat, History.next, lastAccepted_concat,
        (h.after calls).slots.get?_realms_serve e.2 e.1, ih, Option.or_assoc]

/-- **An instance runs on through all calls** that neither configure its realm afresh nor
close everything. -/
theorem IsConsistent.running_after (h : r.IsConsistent []) (hi : r.running id = some i)
    (calls : List (Request × (Backend → Reply)))
    (hcalls : ∀ e ∈ (r.after calls).log, ends id e = false) :
    (r.after calls).registry.running id = some i := by
  induction calls using List.reverseRecOn with
  | nil => exact hi
  | append_singleton calls e ih =>
      rw [after_concat, History.next] at hcalls ⊢
      have hbefore := ih fun e he => hcalls e (List.mem_append_left _ he)
      exact (h.after calls).slots.running_serve hbefore
        (hcalls _ (List.mem_append_right _ (List.mem_singleton_self _)))

/-- The data sources of all instances that were ever returned are accounted for. -/
theorem IsConsistent.lt_length_of_mem_log (h : r.IsConsistent [])
    (calls : List (Request × (Backend → Reply))) {q : Request}
    (hmem : (q, some (.ok i)) ∈ (r.after calls).log) :
    i.source < (r.after calls).registry.sources.length := by
  induction calls using List.reverseRecOn with
  | nil => cases hmem
  | append_singleton calls e ih =>
      rw [after_concat, History.next] at hmem ⊢
      rcases List.mem_append.mp hmem with hold | hnew
      · exact Nat.lt_of_lt_of_le (ih hold)
          ((h.after calls).slots.length_sources_le_serve e.2 e.1)
      · obtain ⟨-, houtcome⟩ := Prod.mk.inj (List.mem_singleton.mp hnew)
        obtain ⟨id, -, hid⟩ := (h.after calls).slots.running_of_serve houtcome.symm
        exact ((h.after calls).serve e.2 e.1).accounted.lt_length hid

/-- **What callers of a registry can rely on**, at every moment of every history of calls:

1. every slot belongs to a known realm; what runs in it was configured from the configuration
   that is stored for the realm, and that is the one accepted last, or else the first one;
2. an instance that was returned for a realm is returned again, and nothing changes by it,
   until the realm is configured afresh or everything is closed;
3. a call that fails changes neither what runs nor what is stored, and a realm that could not
   be opened is opened by the next call that asks for it;
4. a realm that is not known is not found, and gets no slot;
5. every data source that was opened belongs to one instance in a slot or was handed to a
   close, and none of them both. -/
theorem history_sound (realms : List RealmConfig) (calls : List (Request × (Backend → Reply))) :
    let history := (ofRealms realms).after calls
    let r := history.registry
    ((∀ id slot, r.slots.get? id = some slot → ∃ realm, r.realms.get? id = some realm) ∧
      (∀ id i, r.running id = some i →
        r.realms.get? id = some i.realm ∧ i.IsConfiguredWith (r.source i.source)) ∧
      ∀ id, r.realms.get? id =
        (lastAccepted id history.log).or ((ofRealms realms).realms.get? id)) ∧
    (∀ id i reply, (r.getOrConfigure reply id).1 = .ok i → ∀ later,
      let next := (r.getOrConfigure reply id).2.after later
      (∀ e ∈ next.log, ends id e = false) → ∀ reply',
        next.registry.getOrConfigure reply' id = (.ok i, next.registry)) ∧
    ((∀ q reply f, (Request.serve reply r q).1 = some (.error f) →
        (∀ id, (Request.serve reply r q).2.running id = r.running id) ∧
          (Request.serve reply r q).2.realms = r.realms) ∧
      ∀ id realm reply f, r.realms.get? id = some realm →
        (r.getOrConfigure reply id).1 = .error f → ∀ reply',
          ((r.getOrConfigure reply id).2.getOrConfigure reply' id).1 =
            (r.openInstance reply' realm).1) ∧
    (∀ id reply, r.realms.get? id = none →
      r.getOrConfigure reply id = (.error (.notFound ("Unknown realm: " ++ id)), r) ∧
        r.slots.get? id = none) ∧
    ((∀ n, n < r.sources.length ↔ r.Holds n ∨ n ∈ r.retired) ∧
      (∀ n, r.Holds n → n ∉ r.retired) ∧
      (∀ id id' i i', r.running id = some i → r.running id' = some i' →
        i.source = i'.source → id = id') ∧
      (∀ n ∈ r.retired, (r.source n).active = none) ∧
      ∀ q i, (q, some (.ok i)) ∈ history.log → i.source < r.sources.length) := by
  intro history r
  have hinitial := isConsistent_ofRealms realms
  have h : r.IsConsistent [] := hinitial.after calls
  refine ⟨⟨fun id slot => h.slots.known, fun id i => h.current, hinitial.get?_realms_after calls⟩,
    ?again, ⟨?failure, ?retry⟩, ?unknown, ?sources⟩
  case again =>
    intro id i reply hi later next hnext reply'
    have hrunning : next.registry.running id = some i :=
      (h.serve reply (.get id)).running_after (h.slots.running_getOrConfigure hi) later hnext
    exact getOrConfigure_running hrunning reply'
  case failure =>
    intro q reply f hf
    obtain ⟨hrunning, hrealms, -, -⟩ := h.slots.serve_of_error hf
    exact ⟨hrunning, hrealms⟩
  case retry =>
    intro id realm reply f hrealm hf reply'
    exact h.getOrConfigure_again hrealm hf reply'
  case unknown =>
    intro id reply hrealm
    have hslot : r.slots.get? id = none := h.slots.get?_eq_none hrealm
    exact ⟨getOrConfigure_unknown hslot hrealm reply, hslot⟩
  case sources =>
    exact ⟨h.accounted.lt_length_iff, fun n => h.accounted.notMem_of_holds,
      fun id id' i i' => h.accounted.injective, h.accounted.closed,
      fun q i => hinitial.lt_length_of_mem_log calls⟩

/-- A realm that cannot be reached at first, then runs, is configured afresh and closed, runs
again with its new configuration and its third data source. A configuration with a hash
function that nobody knows is refused and changes nothing. -/
theorem history_sound_reconfigured :
    let willing : Backend → Reply := fun _ => ⟨.ok (), .ok ()⟩
    let refusing : Backend → Reply := fun _ => ⟨.error "no route to host", .ok ()⟩
    let strict : RealmConfig := { id := "default", database := Backend.inMemory }
    let lenient : RealmConfig := { strict with allowDelete := true }
    let broken : RealmConfig := { strict with queries := { hashFunction := "ROT13" } }
    let calls := [(Request.get "default", refusing), (.get "default", willing),
      (.validate lenient, willing), (.close, willing)]
    let r := ((ofRealms [strict]).after calls).registry
    let next := (r.getOrConfigure willing "default").2.after [(.validate broken, willing)]
    r.realms.get? "default" = some lenient ∧ r.retired = [0, 1] ∧
      ∃ i, i.source = 2 ∧ i.realm = lenient ∧
        ∀ reply, next.registry.getOrConfigure reply "default" = (.ok i, next.registry) := by
  intro willing refusing strict lenient broken calls r next
  obtain ⟨⟨-, -, hstored⟩, hagain, -, -, -⟩ := history_sound [strict] calls
  have hrealm : r.realms.get? "default" = some lenient :=
    (hstored "default").trans (by decide +kernel)
  have hretired : r.retired = [0, 1] := by decide +kernel
  have hsource : (r.getOrConfigure willing "default").1.toOption.map
      (fun i => (i.source, i.realm)) = some (2, lenient) := by decide +kernel
  have hlog : ∀ e ∈ next.log, ends "default" e = false := by decide +kernel
  cases hgot : (r.getOrConfigure willing "default").1 with
  | error f =>
      rw [hgot] at hsource
      cases hsource
  | ok i =>
      rw [hgot] at hsource
      obtain ⟨hnumber, hconfig⟩ := Prod.mk.inj (Option.some.inj hsource)
      exact ⟨hrealm, hretired, i, hnumber, hconfig,
        hagain "default" i willing hgot [(.validate broken, willing)] hlog⟩

end RealmDirectory.Registry
