import RealmDirectory.Proofs.Password.Reporting

/-!
# Costs that engines are given

An engine begins at the usual cost of its algorithm and can be given other costs, any number of
them and in any order. A cost of bcrypt and a number of PBKDF2 rounds are checked when they are
given, so that an engine never has one that cannot be used. The settings of Argon2 are not: they
are taken as they are, and looked at only when a password is hashed or checked. So an engine for
Argon2 whose last settings cannot be used is built without complaint, and from then on answers
every call by saying that it is not configured. No other engine ever does.

## Main definitions

* `HashEngine.Tunable`, `HashEngine.tune`: a cost, and the engine that is given it.
* `HashEngine.build`: the engine for a name that is given one cost after the other.
* `HashEngine.Tunable.settings`: the settings of Argon2 that the last of some costs leaves.

## Main results

* `HashEngine.tune_eq_ok_iff`: what giving one cost does.
* `HashEngine.build_eq_ok_iff`: which engines are built, and with which costs.
* `HashEngine.isBuilt_iff_exists_build`: these are the engines that can be built.
* `HashEngine.build_configured_iff`: which of them say that they are not configured.
-/

namespace RealmDirectory.HashEngine

variable {e d : HashEngine} {name : String} {salt : Salt} {stored password : String}

/-! ### One cost -/

/-- A cost that an engine can be given. -/
inductive Tunable where
  | bcryptCost (cost : Nat)
  | argon2Settings (settings : Argon2Settings)
  | pbkdf2Rounds (rounds : UInt32)
  deriving DecidableEq, Repr

/-- The engine that is given one more cost. -/
def tune (e : HashEngine) : Tunable → Except Failure HashEngine
  | .bcryptCost cost => e.withBcryptCost cost
  | .argon2Settings settings => .ok (e.withArgon2Settings settings)
  | .pbkdf2Rounds rounds => e.withPbkdf2Rounds rounds

namespace Tunable

/-- The costs that are accepted when they are given. -/
def IsAccepted : Tunable → Prop
  | bcryptCost cost => Bcrypt.allowsCost cost = true
  | argon2Settings _ => True
  | pbkdf2Rounds rounds => rounds ≠ 0

/-- The engine with a cost, accepted or not. -/
def apply (e : HashEngine) : Tunable → HashEngine
  | bcryptCost cost => { e with bcryptCost := cost }
  | argon2Settings settings => { e with argon2 := settings }
  | pbkdf2Rounds rounds => { e with pbkdf2Rounds := rounds }

/-- The settings of Argon2 that the last of some costs leaves, where others stood before. -/
def settings (usual : Argon2Settings) (tunables : List Tunable) : Argon2Settings :=
  (tunables.reverse.findSome? fun
    | argon2Settings s => some s
    | _ => none).getD usual

end Tunable

/-- **What giving one cost does**: it is checked, unless it is for Argon2, and changes nothing but
itself. -/
theorem tune_eq_ok_iff {t : Tunable} : e.tune t = .ok d ↔ t.IsAccepted ∧ d = t.apply e := by
  cases t with
  | bcryptCost cost =>
      constructor
      · exact eq_of_withBcryptCost
      · rintro ⟨hcost, rfl⟩
        have hcheck : checkBcryptCost cost = .ok () := if_pos hcost
        rw [tune, withBcryptCost, hcheck]
        rfl
  | argon2Settings settings =>
      rw [tune, Except.ok.injEq, eq_comm]
      exact (and_iff_right trivial).symm
  | pbkdf2Rounds rounds =>
      constructor
      · exact eq_of_withPbkdf2Rounds
      · rintro ⟨hrounds, rfl⟩
        exact if_neg hrounds

/-! ### One cost after the other -/

/-- The engine for a name that is given one cost after the other. -/
def build (name : String) (tunables : List Tunable) : Except Failure HashEngine := do
  let e ← ofName name
  tunables.foldlM tune e

/-- **What giving several costs does.** -/
theorem foldlM_tune_eq_ok_iff {tunables : List Tunable} :
    tunables.foldlM tune e = .ok d ↔
      (∀ t ∈ tunables, t.IsAccepted) ∧ d = tunables.foldl Tunable.apply e := by
  induction tunables generalizing e with
  | nil => simp [pure, Except.pure, eq_comm]
  | cons t tunables ih =>
      rw [List.foldlM_cons, List.foldl_cons, List.forall_mem_cons]
      cases htune : e.tune t with
      | error f =>
          have hrefused : ¬ t.IsAccepted := fun haccepted => by
            have hok : e.tune t = .ok (t.apply e) := tune_eq_ok_iff.mpr ⟨haccepted, rfl⟩
            cases hok.symm.trans htune
          simp [bind, Except.bind, hrefused]
      | ok next =>
          obtain ⟨haccepted, rfl⟩ := tune_eq_ok_iff.mp htune
          simp [bind, Except.bind, ih, haccepted]

/-- **Which engines are built**: those for a known name whose costs are all accepted, with these
costs. -/
theorem build_eq_ok_iff {tunables : List Tunable} :
    build name tunables = .ok e ↔
      ∃ algorithm, HashAlgorithm.ofName name = .ok algorithm ∧
        (∀ t ∈ tunables, t.IsAccepted) ∧ e = tunables.foldl Tunable.apply { algorithm } := by
  rw [build]
  cases hname : HashAlgorithm.ofName name with
  | error f => simp [ofName, hname, bind, Except.bind]
  | ok algorithm =>
      simp only [ofName, hname, bind, Except.bind]
      simp [foldlM_tune_eq_ok_iff]

/-- A name that is not known builds no engine, and one that is known builds an engine at the usual
cost, which is given the other ones. -/
theorem exists_foldlM_of_build {tunables : List Tunable} (h : build name tunables = .ok e) :
    ∃ first, ofName name = .ok first ∧ tunables.foldlM tune first = .ok e := by
  cases hname : ofName name with
  | error f =>
      rw [build, hname] at h
      cases h
  | ok first =>
      rw [build, hname] at h
      exact ⟨first, rfl, h⟩

/-- The last of some costs is given to the engine that has the other ones. -/
theorem build_append {tunables : List Tunable} {t : Tunable} (h : build name tunables = .ok e) :
    build name (tunables ++ [t]) = e.tune t := by
  obtain ⟨first, hname, hfold⟩ := exists_foldlM_of_build h
  rw [build, hname]
  change List.foldlM tune first (tunables ++ [t]) = e.tune t
  rw [List.foldlM_append, hfold]
  exact bind_pure (e.tune t)

/-- Giving costs to an engine builds an engine. -/
theorem isBuilt_of_foldlM_tune {tunables : List Tunable} (he : e.IsBuilt)
    (h : tunables.foldlM tune e = .ok d) : d.IsBuilt := by
  induction tunables generalizing e with
  | nil =>
      obtain rfl := Except.ok.inj h
      exact he
  | cons t tunables ih =>
      rw [List.foldlM_cons] at h
      cases htune : e.tune t with
      | error f =>
          rw [htune] at h
          cases h
      | ok next =>
          rw [htune] at h
          refine ih ?_ h
          cases t with
          | bcryptCost cost => exact .bcryptCost he htune
          | argon2Settings settings => exact Except.ok.inj htune ▸ .argon2Settings he
          | pbkdf2Rounds rounds => exact .pbkdf2Rounds he htune

/-- **The engines that can be built** are those that are given costs one after the other. -/
theorem isBuilt_iff_exists_build :
    e.IsBuilt ↔ ∃ name tunables, build name tunables = .ok e := by
  constructor
  · intro h
    induction h with
    | @named name e h => exact ⟨name, [], by rw [build, h]; rfl⟩
    | @bcryptCost e d cost _ h ih =>
        obtain ⟨name, tunables, hbuild⟩ := ih
        exact ⟨name, tunables ++ [.bcryptCost cost],
          (build_append (t := .bcryptCost cost) hbuild).trans h⟩
    | @argon2Settings e settings _ ih =>
        obtain ⟨name, tunables, hbuild⟩ := ih
        exact ⟨name, tunables ++ [.argon2Settings settings], build_append hbuild⟩
    | @pbkdf2Rounds e d rounds _ h ih =>
        obtain ⟨name, tunables, hbuild⟩ := ih
        exact ⟨name, tunables ++ [.pbkdf2Rounds rounds],
          (build_append (t := .pbkdf2Rounds rounds) hbuild).trans h⟩
  · rintro ⟨name, tunables, h⟩
    obtain ⟨first, hname, hfold⟩ := exists_foldlM_of_build h
    exact isBuilt_of_foldlM_tune (.named hname) hfold

/-! ### The costs of an engine -/

variable {tunables : List Tunable}

/-- Costs do not change the algorithm. -/
theorem algorithm_foldl_apply (tunables : List Tunable) (e : HashEngine) :
    (tunables.foldl Tunable.apply e).algorithm = e.algorithm := by
  induction tunables generalizing e with
  | nil => rfl
  | cons t tunables ih =>
      rw [List.foldl_cons, ih]
      cases t <;> rfl

/-- The settings of Argon2 are those that were given last. -/
theorem argon2_foldl_apply (tunables : List Tunable) (e : HashEngine) :
    (tunables.foldl Tunable.apply e).argon2 = Tunable.settings e.argon2 tunables := by
  induction tunables using List.reverseRecOn with
  | nil => rfl
  | append_singleton tunables t ih =>
      rw [List.foldl_append, List.foldl_cons, List.foldl_nil]
      cases t with
      | argon2Settings settings => simp [Tunable.apply, Tunable.settings]
      | bcryptCost cost => simpa [Tunable.apply, Tunable.settings] using ih
      | pbkdf2Rounds rounds => simpa [Tunable.apply, Tunable.settings] using ih

/-- **An engine never has a cost of bcrypt that is not allowed.** -/
theorem IsBuilt.allowsCost (h : e.IsBuilt) : Bcrypt.allowsCost e.bcryptCost = true := by
  induction h with
  | named h =>
      obtain ⟨algorithm, rfl⟩ := eq_of_ofName h
      rfl
  | bcryptCost _ h _ =>
      obtain ⟨hcost, rfl⟩ := eq_of_withBcryptCost h
      exact hcost
  | argon2Settings _ ih => exact ih
  | pbkdf2Rounds _ h ih =>
      obtain ⟨-, rfl⟩ := eq_of_withPbkdf2Rounds h
      exact ih

/-! ### Engines that are not configured -/

/-- What an engine that was built says of its cost: nothing, unless it is for Argon2. -/
theorem IsBuilt.check_eq (h : e.IsBuilt) :
    e.check =
      match e.algorithm with
      | .argon2 _ => checkArgon2Settings e.argon2
      | _ => .ok () := by
  rw [check]
  cases e.algorithm with
  | bcrypt => exact if_pos h.allowsCost
  | digest _ | argon2 _ | pbkdf2 => rfl

/-- Settings of Argon2 are refused with what is wrong with them. -/
theorem checkArgon2Settings_eq_error_iff {settings : Argon2Settings} {f : Failure} :
    checkArgon2Settings settings = .error f ↔
      ∃ fault, settings.check = .error fault ∧
        f = .configuration ("Invalid Argon2 parameters: " ++ fault.message) := by
  rw [checkArgon2Settings]
  cases settings.check with
  | ok u => simp
  | error fault => simp [eq_comm]

/-- **Which engines refuse their own cost**: those for Argon2 whose settings cannot be used. -/
theorem IsBuilt.exists_check_eq_error_iff (h : e.IsBuilt) :
    (∃ detail, e.check = .error (.configuration detail)) ↔
      (∃ variant, e.algorithm = .argon2 variant) ∧ ¬ Argon2Text.Allows e.argon2.cost := by
  rw [h.check_eq, ← Argon2Text.checkCost_eq_ok_iff]
  cases e.algorithm with
  | digest _ | bcrypt | pbkdf2 => simp
  | argon2 variant =>
      simp only [checkArgon2Settings_eq_error_iff, HashAlgorithm.argon2.injEq, exists_eq', true_and,
        Argon2Settings.check]
      cases checkCost e.argon2.cost with
      | ok u => simp
      | error fault => simp

/-- An engine that can work at its cost never says that it is not configured. -/
theorem hash_ne_configuration (hcheck : e.check = .ok ()) (detail : String) :
    e.hash salt password ≠ .error (.configuration detail) := by
  intro h
  simp only [hash, hcheck, bind, Except.bind] at h
  split at h
  · cases h
  · cases h
  · split at h <;> cases h
  · cases h

/-- **When hashing says that the engine is not configured**: when its cost is refused. -/
theorem hash_eq_configuration_iff {detail : String} :
    e.hash salt password = .error (.configuration detail) ↔
      e.check = .error (.configuration detail) := by
  cases hcheck : e.check with
  | ok u => simpa using hash_ne_configuration hcheck detail
  | error f => simp [hash, hcheck, bind, Except.bind]

/-- **When checking says that the engine is not configured**: when its cost is refused. -/
theorem verify_eq_configuration_iff {detail : String} :
    e.verify stored password = .error (.configuration detail) ↔
      e.check = .error (.configuration detail) := by
  cases hcheck : e.check with
  | ok u =>
      simp only [reduceCtorEq, iff_false]
      intro h
      rcases eq_malformedHash_or_internal hcheck h with ⟨_, heq⟩ | ⟨_, heq⟩ <;> cases heq
  | error f => simp [verify, hcheck, bind, Except.bind]

/-- **Which engines say that they are not configured.** An engine is built when its name is known
and each cost is accepted when it is given. Whatever the salt, the password and the stored text, it
says that it is not configured exactly when it is for Argon2 and the settings that it was given
last, or the usual ones when it was given none, cannot be used. -/
theorem build_configured_iff (h : build name tunables = .ok e) :
    (∀ t ∈ tunables, t.IsAccepted) ∧
      (∀ salt password, (∃ detail, e.hash salt password = .error (.configuration detail)) ↔
        (∃ variant, HashAlgorithm.ofName name = .ok (.argon2 variant)) ∧
          ¬ Argon2Text.Allows (Tunable.settings ⟨125000, 2, 4⟩ tunables).cost) ∧
      ∀ stored password, (∃ detail, e.verify stored password = .error (.configuration detail)) ↔
        (∃ variant, HashAlgorithm.ofName name = .ok (.argon2 variant)) ∧
          ¬ Argon2Text.Allows (Tunable.settings ⟨125000, 2, 4⟩ tunables).cost := by
  have hbuilt : e.IsBuilt := isBuilt_iff_exists_build.mpr ⟨name, tunables, h⟩
  obtain ⟨algorithm, hname, haccepted, rfl⟩ := build_eq_ok_iff.mp h
  have hrefused := hbuilt.exists_check_eq_error_iff
  rw [algorithm_foldl_apply, argon2_foldl_apply] at hrefused
  simp only [hname, Except.ok.injEq, hash_eq_configuration_iff, verify_eq_configuration_iff]
  exact ⟨haccepted, fun _ _ => hrefused, fun _ _ => hrefused⟩

/-- An engine for Argon2 takes settings that leave no room for a block of memory, and says that it
is not configured when it is asked. -/
theorem build_configured_iff_tiny :
    let tunables : List Tunable := [.bcryptCost 4, .argon2Settings ⟨1, 1, 1⟩, .pbkdf2Rounds 1000]
    ∃ e, build "Argon2id" tunables = .ok e ∧
      ∀ stored password, ∃ detail, e.verify stored password = .error (.configuration detail) := by
  intro tunables
  have hbuild : build "Argon2id" tunables =
      .ok { algorithm := .argon2 .id, bcryptCost := 4, argon2 := ⟨1, 1, 1⟩
            pbkdf2Rounds := 1000 } :=
    rfl
  have htiny : ¬ Argon2Text.Allows (Tunable.settings ⟨125000, 2, 4⟩ tunables).cost :=
    fun hallows => absurd hallows.memory (by decide)
  exact ⟨_, hbuild, fun stored password =>
    ((build_configured_iff hbuild).2.2 stored password).mpr ⟨⟨.id, rfl⟩, htiny⟩⟩

end RealmDirectory.HashEngine
