import Mathlib.Data.String.Basic
import RealmDirectory.Proofs.Directory.Consistency
import RealmDirectory.Proofs.KeyedList

/-!
# Accepted configurations

A configuration is checked realm by realm, and the first realm that repeats an identifier or cannot
be used decides. The same list is looked up in three ways: the check keeps the identifiers that it
has seen, a lookup in the configuration takes the first realm with an identifier, and a registry
keeps the last one. In a configuration that is accepted no identifier repeats, so the three agree,
and nothing of it is lost when a registry is made of it.

## Main definitions

* `RealmConfig.IsUsable`: what a realm has to be like.
* `RealmConfig.Refusal`: why a realm cannot be used.
* `DirectoryConfig.FailsFirstWith`: the first realm that repeats an identifier or cannot be used.

## Main results

* `RealmConfig.check_eq_ok_iff`, `RealmConfig.check_eq_error_iff`: the check of one realm.
* `DirectoryConfig.checkFrom_eq_ok_iff`, `DirectoryConfig.checkFrom_eq_error_iff`: the check of the
  realms behind others.
* `Registry.get?_realms_ofRealms`: the last realm with an identifier is the first one when no
  identifier repeats.
* `Registry.getOrConfigure_ofRealms`: what the first call for a realm comes to.
* `DirectoryConfig.accepted_is_registered`: accepted configurations and their registries.
-/

namespace RealmDirectory

/-- A name that is no hash function's is told. -/
theorem HashAlgorithm.eq_of_ofName_eq_error {name : String} {f : Failure}
    (h : ofName name = .error f) :
    f = .configuration ("Unsupported password hash function: " ++ name) := by
  rw [ofName] at h
  split at h
  · cases h
  · split at h
    · cases h
    · exact (Except.error.inj h).symm

namespace RealmConfig

variable {r : RealmConfig} {f : Failure}

/-! ### One realm -/

/-- A realm that can be used: its identifier is not blank, the settings of its database are
accepted, and its hash function is known. -/
structure IsUsable (r : RealmConfig) : Prop where
  id : Text.isBlankText r.id = false
  database : r.backend.check = .ok ()
  hashFunction : ∃ algorithm, HashAlgorithm.ofName r.queries.hashFunction = .ok algorithm

/-- Why a realm cannot be used. The identifier is looked at first, then the database, and the hash
function last. -/
inductive Refusal (r : RealmConfig) : Failure → Prop
  | id (hid : Text.isBlankText r.id = true) :
      Refusal r (.configuration "Realm id cannot be empty")
  | database {reason : String} (hid : Text.isBlankText r.id = false)
      (hdatabase : r.backend.check = .error reason) :
      Refusal r (.configuration ("Realm " ++ r.id ++ ": " ++ reason))
  | hashFunction (hid : Text.isBlankText r.id = false) (hdatabase : r.backend.check = .ok ())
      (hhash : ∀ algorithm, HashAlgorithm.ofName r.queries.hashFunction ≠ .ok algorithm) :
      Refusal r (.configuration ("Realm " ++ r.id ++ ": " ++
        ("Unsupported password hash function: " ++ r.queries.hashFunction)))

/-- The statements of a realm need no more than its hash function. -/
theorem exists_templateSet_eq_map (r : RealmConfig) :
    ∃ prepare : HashAlgorithm → TemplateSet,
      r.templateSet = (HashAlgorithm.ofName r.queries.hashFunction).map prepare := by
  refine ⟨fun algorithm => TemplateSet.ofTemplates r.queries.templates
    (ColumnMapping.parse r.queries.columns) { algorithm } r.database.dialect r.allowDelete
    r.allowOverwrite, ?_⟩
  rw [templateSet, HashEngine.ofName]
  cases HashAlgorithm.ofName r.queries.hashFunction <;> rfl

/-- The statements of a realm are ready exactly when its hash function is known. -/
theorem exists_templateSet_iff :
    (∃ queries, r.templateSet = .ok queries) ↔
      ∃ algorithm, HashAlgorithm.ofName r.queries.hashFunction = .ok algorithm := by
  obtain ⟨prepare, hprepare⟩ := r.exists_templateSet_eq_map
  rw [hprepare]
  cases HashAlgorithm.ofName r.queries.hashFunction <;> simp [Except.map]

/-- The statements of a realm fail with the name of its hash function. -/
theorem eq_of_templateSet_eq_error (h : r.templateSet = .error f) :
    f = .configuration ("Unsupported password hash function: " ++ r.queries.hashFunction) := by
  obtain ⟨prepare, hprepare⟩ := r.exists_templateSet_eq_map
  rw [hprepare] at h
  cases halgorithm : HashAlgorithm.ofName r.queries.hashFunction with
  | error f' =>
      rw [halgorithm] at h
      obtain rfl := Except.error.inj h
      exact HashAlgorithm.eq_of_ofName_eq_error halgorithm
  | ok algorithm =>
      rw [halgorithm] at h
      cases h

/-- **The check of a realm**: it can be used, or one of the reasons against it is told. -/
theorem check_cases (r : RealmConfig) :
    (r.check = .ok () ∧ r.IsUsable) ∨ ∃ f, r.check = .error f ∧ r.Refusal f := by
  unfold check
  split
  · next hid => exact .inr ⟨_, rfl, .id hid⟩
  · next hid =>
      rw [Bool.not_eq_true] at hid
      split
      · next reason hdatabase => exact .inr ⟨_, rfl, .database hid hdatabase⟩
      · next hdatabase =>
          split
          · next f hqueries =>
              have hhash : ¬ ∃ a, HashAlgorithm.ofName r.queries.hashFunction = .ok a := by
                rintro hknown
                obtain ⟨queries, hready⟩ := exists_templateSet_iff.mpr hknown
                rw [hqueries] at hready
                simp only [reduceCtorEq] at hready
              rw [eq_of_templateSet_eq_error hqueries]
              exact .inr ⟨_, rfl, .hashFunction hid hdatabase (not_exists.mp hhash)⟩
          · next queries hqueries =>
              exact .inl ⟨rfl, hid, hdatabase, exists_templateSet_iff.mp ⟨queries, hqueries⟩⟩

/-- A realm that can be used is not refused. -/
theorem IsUsable.not_refusal (h : r.IsUsable) : ¬ r.Refusal f := by
  obtain ⟨hid, hdatabase, algorithm, hhash⟩ := h
  intro hrefused
  cases hrefused with
  | id hblank => rw [hid] at hblank; cases hblank
  | database _ hreason => rw [hdatabase] at hreason; cases hreason
  | hashFunction _ _ hunknown => exact hunknown algorithm hhash

/-- At most one reason against a realm counts. -/
theorem Refusal.unique {f' : Failure} (h : r.Refusal f) (h' : r.Refusal f') : f' = f := by
  cases h <;> cases h' <;> simp_all

/-- **A realm is accepted** exactly when it can be used. -/
theorem check_eq_ok_iff : r.check = .ok () ↔ r.IsUsable := by
  rcases check_cases r with ⟨hcheck, husable⟩ | ⟨f, hcheck, hrefused⟩
  · exact iff_of_true hcheck husable
  · exact iff_of_false (by rw [hcheck]; nofun) fun husable => husable.not_refusal hrefused

/-- **A realm is refused** with the reason against it. -/
theorem check_eq_error_iff : r.check = .error f ↔ r.Refusal f := by
  rcases check_cases r with ⟨hcheck, husable⟩ | ⟨f', hcheck, hrefused⟩
  · exact iff_of_false (by rw [hcheck]; nofun) husable.not_refusal
  · rw [hcheck]
    exact ⟨fun heq => Except.error.inj heq ▸ hrefused,
      fun hf => congrArg Except.error (hf.unique hrefused)⟩

end RealmConfig

namespace DirectoryConfig

/-! ### Realms one behind the other -/

/-- A realm behind other ones that can be used and have different identifiers repeats one of these
identifiers, or cannot be used itself; in front of it none does. -/
def FailsFirstWith (realms : List RealmConfig) (f : Failure) : Prop :=
  ∃ before r after, realms = before ++ r :: after ∧ (before.map RealmConfig.id).Nodup ∧
    (∀ b ∈ before, b.IsUsable) ∧
    ((r.id ∈ before.map RealmConfig.id ∧
        f = .configuration ("Duplicate realm id: " ++ r.id)) ∨
      (r.id ∉ before.map RealmConfig.id ∧ r.Refusal f))

variable {c : DirectoryConfig} {realms : List RealmConfig} {seen : List String} {f : Failure}

/-- The check of a realm and of those behind it, given the identifiers before it. -/
theorem checkFrom_cons_of_notMem {r : RealmConfig} (h : r.id ∉ seen) :
    checkFrom seen (r :: realms) = r.check.bind fun _ => checkFrom (r.id :: seen) realms := by
  rw [checkFrom, if_neg (by simpa using h)]
  cases r.check <;> rfl

theorem checkFrom_cons_of_mem {r : RealmConfig} (h : r.id ∈ seen) :
    checkFrom seen (r :: realms) =
      .error (.configuration ("Duplicate realm id: " ++ r.id)) := by
  rw [checkFrom, if_pos (by simpa using h)]

theorem checkFrom_cons_of_usable {r : RealmConfig} (h : r.id ∉ seen) (hr : r.IsUsable) :
    checkFrom seen (r :: realms) = checkFrom (r.id :: seen) realms := by
  rw [checkFrom_cons_of_notMem h, RealmConfig.check_eq_ok_iff.mpr hr]
  rfl

theorem checkFrom_cons_of_refusal {r : RealmConfig} (h : r.id ∉ seen) (hr : r.Refusal f) :
    checkFrom seen (r :: realms) = .error f := by
  rw [checkFrom_cons_of_notMem h, RealmConfig.check_eq_error_iff.mpr hr]
  rfl

/-- **Realms behind others are accepted** exactly when all of them can be used, and no identifier
repeats. The induction is on the realms; the identifier of each joins those before the rest. -/
theorem checkFrom_eq_ok_iff :
    checkFrom seen realms = .ok () ↔ (realms.map RealmConfig.id).Nodup ∧
      (∀ r ∈ realms, r.id ∉ seen) ∧ ∀ r ∈ realms, r.IsUsable := by
  induction realms generalizing seen with
  | nil => simp [checkFrom]
  | cons r rest ih =>
      by_cases hseen : r.id ∈ seen
      · rw [checkFrom_cons_of_mem hseen]
        exact iff_of_false nofun fun h => h.2.1 r List.mem_cons_self hseen
      · rcases r.check_cases with ⟨-, husable⟩ | ⟨f, -, hrefused⟩
        · rw [checkFrom_cons_of_usable hseen husable, ih]
          simp only [List.map_cons, List.nodup_cons, List.mem_map, List.mem_cons, not_or,
            forall_eq_or_imp, forall_and, hseen, husable, not_false_eq_true, true_and]
          constructor
          · rintro ⟨hnodup, ⟨hne, hnew⟩, hall⟩
            exact ⟨⟨fun ⟨b, hb, heq⟩ => hne b hb heq, hnodup⟩, hnew, hall⟩
          · rintro ⟨⟨hne, hnodup⟩, hnew, hall⟩
            exact ⟨hnodup, ⟨fun b hb heq => hne ⟨b, hb, heq⟩, hnew⟩, hall⟩
        · rw [checkFrom_cons_of_refusal hseen hrefused]
          exact iff_of_false nofun fun h =>
            (h.2.2 r List.mem_cons_self).not_refusal hrefused

/-- **Of realms that are refused**, those in front are accepted, and the first one that is not
decides. The induction is on the realms, as before. -/
theorem checkFrom_eq_error_iff :
    checkFrom seen realms = .error f ↔
      ∃ before r after, realms = before ++ r :: after ∧ checkFrom seen before = .ok () ∧
        ((r.id ∈ before.map RealmConfig.id ++ seen ∧
            f = .configuration ("Duplicate realm id: " ++ r.id)) ∨
          (r.id ∉ before.map RealmConfig.id ++ seen ∧ r.Refusal f)) := by
  induction realms generalizing seen with
  | nil =>
      refine iff_of_false nofun ?_
      rintro ⟨before, r, after, heq, -⟩
      simp at heq
  | cons r rest ih =>
      -- an identifier in front of the rest is the realm's, or one that was seen before
      have hmem (id : String) (before : List RealmConfig) :
          id ∈ before.map RealmConfig.id ++ r.id :: seen ↔
            id ∈ (r :: before).map RealmConfig.id ++ seen := by
        simp only [List.map_cons, List.cons_append, List.mem_append, List.mem_cons]
        exact or_left_comm
      constructor
      · intro h
        by_cases hseen : r.id ∈ seen
        · rw [checkFrom_cons_of_mem hseen] at h
          exact ⟨[], r, rest, rfl, rfl, .inl ⟨hseen, (Except.error.inj h).symm⟩⟩
        · rcases r.check_cases with ⟨-, husable⟩ | ⟨f', -, hrefused⟩
          · rw [checkFrom_cons_of_usable hseen husable, ih] at h
            obtain ⟨before, r', after, rfl, hbefore, hr'⟩ := h
            rw [hmem] at hr'
            exact ⟨r :: before, r', after, rfl,
              (checkFrom_cons_of_usable hseen husable).trans hbefore, hr'⟩
          · rw [checkFrom_cons_of_refusal hseen hrefused] at h
            obtain rfl := Except.error.inj h
            exact ⟨[], r, rest, rfl, rfl, .inr ⟨hseen, hrefused⟩⟩
      · rintro ⟨before, r', after, heq, hbefore, hr'⟩
        cases before with
        | nil =>
            obtain ⟨rfl, rfl⟩ := List.cons.inj heq
            rcases hr' with ⟨hseen, rfl⟩ | ⟨hseen, hrefused⟩
            · exact checkFrom_cons_of_mem hseen
            · exact checkFrom_cons_of_refusal hseen hrefused
        | cons b before =>
            obtain ⟨rfl, rfl⟩ := List.cons.inj heq
            obtain ⟨-, hnew, hall⟩ := checkFrom_eq_ok_iff.mp hbefore
            have hseen := hnew r List.mem_cons_self
            have husable := hall r List.mem_cons_self
            rw [checkFrom_cons_of_usable hseen husable] at hbefore ⊢
            rw [← hmem] at hr'
            exact ih.mpr ⟨before, r', after, rfl, hbefore, hr'⟩

/-! ### Whole configurations -/

/-- **A configuration is accepted** exactly when it has a realm, no identifier repeats, and every
realm can be used. -/
theorem check_eq_ok_iff :
    c.check = .ok () ↔ c.realms ≠ [] ∧ (c.realms.map RealmConfig.id).Nodup ∧
      ∀ r ∈ c.realms, r.IsUsable := by
  rw [check]
  split
  · next hnil => exact iff_of_false nofun fun h => h.1 (List.isEmpty_iff.mp hnil)
  · next hne =>
      rw [checkFrom_eq_ok_iff]
      have hne : c.realms ≠ [] := fun hnil => hne (List.isEmpty_iff.mpr hnil)
      simp only [ne_eq, hne, not_false_eq_true, true_and, List.not_mem_nil, implies_true]

/-- **A configuration is refused** when it has no realm, and otherwise for the first realm that
repeats an identifier or cannot be used. -/
theorem check_eq_error_iff :
    c.check = .error f ↔
      (c.realms = [] ∧
          f = .configuration "Configuration must contain at least one realm") ∨
        FailsFirstWith c.realms f := by
  have hfirst : FailsFirstWith c.realms f ↔ checkFrom [] c.realms = .error f := by
    rw [checkFrom_eq_error_iff, FailsFirstWith]
    simp only [checkFrom_eq_ok_iff, List.append_nil, List.not_mem_nil, not_false_eq_true,
      implies_true, true_and, and_assoc]
  rw [check, hfirst]
  split
  · next hnil =>
      rw [List.isEmpty_iff.mp hnil]
      simp only [Except.error.injEq, true_and, checkFrom, reduceCtorEq, or_false]
      exact eq_comm
  · next hne =>
      have hne : c.realms ≠ [] := fun hnil => hne (List.isEmpty_iff.mpr hnil)
      simp only [hne, false_and, false_or]

end DirectoryConfig

namespace Registry

/-! ### The registry of a configuration -/

variable {realms : List RealmConfig} {id : String} {r : RealmConfig}

/-- Every realm is kept when no identifier repeats. -/
theorem entries_realms_ofRealms (h : (realms.map RealmConfig.id).Nodup) :
    (ofRealms realms).realms.entries = realms.map fun r => (r.id, r) := by
  refine KeyedList.entries_ofList ?_
  rw [List.map_map]
  exact h

/-- **The last realm with an identifier is the first one** when no identifier repeats. -/
theorem get?_realms_ofRealms (h : (realms.map RealmConfig.id).Nodup) (id : String) :
    (ofRealms realms).realms.get? id = realms.find? fun r => r.id == id := by
  rw [KeyedList.get?, entries_realms_ofRealms h, List.find?_map, Option.map_map]
  exact Option.map_id'

/-- The identifiers of a registry ascend, and are those that its realms have. -/
theorem realmIds_ofRealms (h : (realms.map RealmConfig.id).Nodup) :
    (ofRealms realms).realmIds.Perm (realms.map RealmConfig.id) ∧
      (ofRealms realms).realmIds.Pairwise (· < ·) := by
  have hkeys : (ofRealms realms).realms.keys = realms.map RealmConfig.id := by
    rw [KeyedList.keys, entries_realms_ofRealms h, List.map_map]
    rfl
  have hperm : (ofRealms realms).realmIds.Perm (realms.map RealmConfig.id) :=
    hkeys ▸ List.mergeSort_perm _ _
  have hle : (ofRealms realms).realmIds.Pairwise fun a b => decide (a ≤ b) :=
    List.pairwise_mergeSort
      (fun a b c hab hbc => by
        rw [decide_eq_true_iff] at hab hbc ⊢
        exact le_trans hab hbc)
      (fun a b => by
        rw [Bool.or_eq_true, decide_eq_true_iff, decide_eq_true_iff]
        exact le_total a b) _
  refine ⟨hperm, (hle.and (hperm.nodup_iff.mpr h)).imp ?_⟩
  rintro a b ⟨hab, hne⟩
  exact lt_of_le_of_ne (decide_eq_true_iff.mp hab) hne

/-- **The first call for a realm** prepares its statements, and comes to what the new data source
says to the settings of its database. -/
theorem getOrConfigure_ofRealms (hrealm : (ofRealms realms).realms.get? id = some r)
    {queries : TemplateSet} (hqueries : r.templateSet = .ok queries) (reply : Backend → Reply) :
    ((ofRealms realms).getOrConfigure reply id).1 =
      (({} : DataSource).configure (reply r.backend) r.backend).1.map fun _ => ⟨r, queries, 0⟩ := by
  have hslots : (ofRealms realms).HasProperSlots := (isConsistent_ofRealms realms).slots
  have hrunning : (ofRealms realms).running id = none := rfl
  have hopen : ((ofRealms realms).openInstance reply r).1 =
      (({} : DataSource).configure (reply r.backend) r.backend).1.map fun _ => ⟨r, queries, 0⟩ := by
    simp only [openInstance, hqueries]
    cases ({} : DataSource).configure (reply r.backend) r.backend with
    | mk result s => cases result <;> rfl
  rw [← hopen]
  rcases openInstance_cases reply r (ofRealms realms) with ⟨f, hcase⟩ | ⟨i, s, hcase, -⟩
  · rw [getOrConfigure_of_error hslots hrealm hrunning hcase, hcase]
  · rw [getOrConfigure_of_ok hslots hrealm hrunning hcase, hcase]

end Registry

/-- **Accepted configurations, and what becomes of them.**

1. A configuration is accepted exactly when it has a realm, no two realms have one identifier, and
   every realm can be used: its identifier is not blank, the settings of its database are accepted,
   and its hash function is known.
2. A configuration without realms is refused as such, and any other one for the first realm that
   repeats an identifier or cannot be used, in the order in which this is looked at.
3. The registry of an accepted configuration loses nothing and merges nothing: it has the
   identifiers of all realms in ascending order, it knows for each the realm that a lookup in the
   configuration finds, and for no other identifier any realm. The statements of that realm can be
   prepared, and the first call for it runs it with them, unless the data source cannot be
   configured with its database. -/
theorem DirectoryConfig.accepted_is_registered (c : DirectoryConfig) :
    (c.check = .ok () ↔
      c.realms ≠ [] ∧ (c.realms.map RealmConfig.id).Nodup ∧ ∀ r ∈ c.realms, r.IsUsable) ∧
    (∀ f, c.check = .error f ↔
      (c.realms = [] ∧ f = .configuration "Configuration must contain at least one realm") ∨
        FailsFirstWith c.realms f) ∧
    (c.check = .ok () →
      let g := Registry.ofRealms c.realms
      (g.realmIds.Perm (c.realms.map RealmConfig.id) ∧ g.realmIds.Pairwise (· < ·)) ∧
      (∀ id, g.realms.get? id = c.find? id) ∧
      ∀ r ∈ c.realms, c.find? r.id = some r ∧
        ∃ queries, r.templateSet = .ok queries ∧ ∀ reply, (g.getOrConfigure reply r.id).1 =
          (({} : DataSource).configure (reply r.backend) r.backend).1.map
            fun _ => ⟨r, queries, 0⟩) := by
  refine ⟨check_eq_ok_iff, fun f => check_eq_error_iff, fun h => ?_⟩
  obtain ⟨-, hnodup, husable⟩ := check_eq_ok_iff.mp h
  have hget := Registry.get?_realms_ofRealms hnodup
  refine ⟨Registry.realmIds_ofRealms hnodup, hget, fun r hr => ?_⟩
  have hrealm : (Registry.ofRealms c.realms).realms.get? r.id = some r := by
    rw [KeyedList.get?_eq_some_iff, Registry.entries_realms_ofRealms hnodup]
    exact List.mem_map_of_mem hr
  obtain ⟨queries, hqueries⟩ := RealmConfig.exists_templateSet_iff.mpr (husable r hr).hashFunction
  exact ⟨(hget r.id).symm.trans hrealm, queries, hqueries,
    Registry.getOrConfigure_ofRealms hrealm hqueries⟩

/-- Two realms on databases in memory, with different hash functions, are accepted; the registry
knows both, in ascending order, and the second one is what runs under its identifier. -/
theorem DirectoryConfig.accepted_is_registered_two_realms :
    let staff : RealmConfig := { id := "staff", database := Backend.inMemory }
    let guests : RealmConfig :=
      { id := "guests", database := Backend.inMemory, queries := { hashFunction := "Argon2id" } }
    let c : DirectoryConfig := { realms := [staff, guests] }
    let g := Registry.ofRealms c.realms
    c.check = .ok () ∧ g.realmIds.Perm ["staff", "guests"] ∧ g.realmIds.Pairwise (· < ·) ∧
      g.realms.get? "guests" = c.find? "guests" ∧ c.find? "guests" = some guests ∧
      ∃ queries, guests.templateSet = .ok queries ∧ ∀ reply,
        (g.getOrConfigure reply "guests").1 =
          (({} : DataSource).configure (reply guests.backend) guests.backend).1.map
            fun _ => ⟨guests, queries, 0⟩ := by
  intro staff guests c g
  have hcheck : c.check = .ok () := by decide
  obtain ⟨⟨hperm, hascending⟩, hget, hall⟩ := (accepted_is_registered c).2.2 hcheck
  obtain ⟨hfind, hruns⟩ := hall guests (List.mem_cons_of_mem staff List.mem_cons_self)
  exact ⟨hcheck, hperm, hascending, hget "guests", hfind, hruns⟩

end RealmDirectory
