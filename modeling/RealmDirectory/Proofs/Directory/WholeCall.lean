import RealmDirectory.Directory.Registry

/-!
# Whole calls on a registry

A call that runs alone takes its steps one after the other, and nothing happens between
them. This module says what such a call comes to: which instance it returns, and how the
registry looks behind it. It asks no more of the registry than that the slots are proper:
every slot belongs to a known realm and has a cell of its own, which is not left reserved.

## Main definitions

* `Registry.running`: the instance in the slot of a realm.
* `Registry.HasProperSlots`: slots of known realms with cells of their own.
* `Registry.Request`, `Registry.Request.serve`: a whole call, and what it does.
* `Registry.Served`: the cases of a whole call.

## Main results

* `openInstance_cases`: an instance is opened, or nothing has changed.
* `getOrConfigure_running`, `getOrConfigure_unknown`, `getOrConfigure_of_error`,
  `getOrConfigure_of_ok`: what a call for the instance of a realm comes to.
* `reconfigure_cases`: what a call with a new configuration comes to.
* `close_eq`: what a call that closes comes to.
* `HasProperSlots.served`: every whole call is one of the cases.
-/

namespace RealmDirectory

/-- The statements of an instance are those of its realm, and a data source was configured
with the database of the realm. -/
def Instance.IsConfiguredWith (i : Instance) (s : DataSource) : Prop :=
  i.realm.templateSet = .ok i.queries ∧
    ∃ reply, ({} : DataSource).configure reply i.realm.backend = (.ok (), s)

namespace Registry

variable {r : Registry} {id : String} {i : Instance}

/-! ### Slots and what is in them -/

/-- The instance in the slot of a realm. -/
def running (r : Registry) (id : String) : Option Instance :=
  (r.slots.get? id).bind fun slot => (r.cell slot).instance?

theorem running_eq_some_iff :
    r.running id = some i ↔ ∃ slot, r.slots.get? id = some slot ∧ r.cell slot = .filled i := by
  have hcell (slot : Nat) : (r.cell slot).instance? = some i ↔ r.cell slot = .filled i := by
    cases r.cell slot <;> simp [Cell.instance?]
  simp only [running, Option.bind_eq_some_iff, hcell]

/-- Every slot belongs to a known realm and has a cell, no two slots have the same one, and no
call has reserved the cell of a slot. -/
structure HasProperSlots (r : Registry) : Prop where
  known : ∀ {id slot}, r.slots.get? id = some slot → ∃ realm, r.realms.get? id = some realm
  lt_length : ∀ {id slot}, r.slots.get? id = some slot → slot < r.cells.length
  injective : ∀ {id id' slot}, r.slots.get? id = some slot → r.slots.get? id' = some slot →
    id = id'
  ne_reserved : ∀ {id slot}, r.slots.get? id = some slot → r.cell slot ≠ .reserved

/-- Adds a data source. -/
def addSource (r : Registry) (s : DataSource) : Registry := { r with sources := r.sources ++ [s] }

/-- Makes a slot for a realm that has none. -/
def claim (r : Registry) (id : String) : Registry :=
  match r.slots.get? id with
  | some _ => r
  | none => r.addSlot id .empty

/-- Puts an instance into the slot of a realm, which is made if there is none. -/
def install (r : Registry) (id : String) (i : Instance) : Registry :=
  match r.slots.get? id with
  | some slot => r.setCell slot (.filled i)
  | none => r.addSlot id (.filled i)

/-- Stores the configuration of an instance, and puts the instance into a new slot. -/
def adopt (r : Registry) (i : Instance) : Registry :=
  { r with realms := r.realms.insert i.realm.id i.realm }.addSlot i.realm.id (.filled i)

/-- Hands the data source of an instance to a close, when there is an instance. -/
def retireInstance (r : Registry) : Option Instance → Registry
  | some i => r.retire i.source
  | none => r

theorem retireSlot_eq (r : Registry) (slot : Nat) :
    r.retireSlot slot = r.retireInstance (r.cell slot).instance? := by
  unfold retireSlot
  cases (r.cell slot).instance? <;> rfl

theorem realms_retireInstance (r : Registry) (i : Option Instance) :
    (r.retireInstance i).realms = r.realms := by
  cases i <;> rfl

theorem running_retireInstance (r : Registry) (i : Option Instance) (id : String) :
    (r.retireInstance i).running id = r.running id := by
  cases i <;> rfl

theorem length_sources_retireInstance (r : Registry) (i : Option Instance) :
    (r.retireInstance i).sources.length = r.sources.length := by
  cases i with
  | none => rfl
  | some i => exact List.length_set

section

variable {α : Type} (l : List α) (a d : α)

/-- One element of a list is replaced, and the others stay. -/
theorem getD_set {n : Nat} (h : n < l.length) (m : Nat) :
    (l.set n a).getD m d = if m = n then a else l.getD m d := by
  rw [List.getD_eq_getElem?_getD, List.getD_eq_getElem?_getD]
  split
  · next heq => rw [heq, List.getElem?_set_self h, Option.getD_some]
  · next hne => rw [List.getElem?_set_ne (Ne.symm hne)]

/-- One element is added to a list, and the others stay. -/
theorem getD_concat (m : Nat) :
    (l ++ [a]).getD m d = if m = l.length then a else l.getD m d := by
  rw [List.getD_eq_getElem?_getD, List.getD_eq_getElem?_getD]
  split
  · next heq => rw [heq, List.getElem?_concat_length, Option.getD_some]
  · next hne =>
      rcases Nat.lt_or_gt_of_ne hne with hlt | hgt
      · rw [List.getElem?_append_left hlt]
      · rw [List.getElem?_eq_none (by simp; omega), List.getElem?_eq_none (by omega)]

end

theorem cell_setCell {slot : Nat} (h : slot < r.cells.length) (c : Cell) (slot' : Nat) :
    (r.setCell slot c).cell slot' = if slot' = slot then c else r.cell slot' :=
  getD_set _ _ _ h slot'

theorem cell_addSlot (r : Registry) (id : String) (c : Cell) (slot : Nat) :
    (r.addSlot id c).cell slot = if slot = r.cells.length then c else r.cell slot :=
  getD_concat _ _ _ slot

theorem source_addSource (r : Registry) (s : DataSource) (n : Nat) :
    (r.addSource s).source n = if n = r.sources.length then s else r.source n :=
  getD_concat _ _ _ n

theorem source_retire {n : Nat} (h : n < r.sources.length) (m : Nat) :
    (r.retire n).source m = if m = n then (r.source n).close else r.source m :=
  getD_set _ _ _ h m

/-- A cell that is reserved and given up is as it was. -/
theorem setCell_setCell_eq_self {slot : Nat} (h : slot < r.cells.length) {c : Cell}
    (hcell : r.cell slot = c) (c' : Cell) : (r.setCell slot c').setCell slot c = r := by
  have hget : r.cells[slot] = c := by
    rw [← hcell, cell, List.getD_eq_getElem?_getD, List.getElem?_eq_getElem h, Option.getD_some]
  simp only [setCell, List.set_set]
  rw [← hget, List.set_getElem_self]

theorem setCell_setCell (r : Registry) (slot : Nat) (c c' : Cell) :
    (r.setCell slot c).setCell slot c' = r.setCell slot c' := by
  simp only [setCell, List.set_set]

theorem setCell_addSlot (r : Registry) (id : String) (c c' : Cell) :
    (r.addSlot id c).setCell r.cells.length c' = r.addSlot id c' := by
  simp only [addSlot, setCell, List.set_append_right _ _ (Nat.le_refl _), Nat.sub_self,
    List.set_cons_zero]

/-! ### Opening an instance -/

section

variable {reply : Backend → Reply} {realm : RealmConfig}

/-- **An instance is opened, with a data source of its own, or nothing has changed.** -/
theorem openInstance_cases (reply : Backend → Reply) (realm : RealmConfig) (r : Registry) :
    (∃ f, r.openInstance reply realm = (.error f, r)) ∨
      ∃ i s, r.openInstance reply realm = (.ok i, r.addSource s) ∧ i.realm = realm ∧
        i.source = r.sources.length ∧ i.IsConfiguredWith s := by
  unfold openInstance
  cases hqueries : realm.templateSet with
  | error f => exact Or.inl ⟨f, rfl⟩
  | ok queries =>
      match hs : ({} : DataSource).configure (reply realm.backend) realm.backend with
      | (.error f, s) =>
          simp only [hs]
          exact Or.inl ⟨f, rfl⟩
      | (.ok (), s) =>
          simp only [hs]
          exact Or.inr ⟨_, s, rfl, rfl, rfl, hqueries, _, hs⟩

/-- What is opened does not depend on the slots and their cells. -/
theorem openInstance_congr {r₁ r₂ : Registry} (h : r₂.sources = r₁.sources) :
    r₂.openInstance reply realm =
      ((r₁.openInstance reply realm).1,
        { r₂ with sources := (r₁.openInstance reply realm).2.sources }) := by
  unfold openInstance
  cases realm.templateSet with
  | error f => simp only [← h]
  | ok queries =>
      match hs : ({} : DataSource).configure (reply realm.backend) realm.backend with
      | (.error f, s) => simp only [hs, ← h]
      | (.ok (), s) => simp only [hs, ← h]

theorem openInstance_of_error {r₁ r₂ : Registry} {f : Failure}
    (hopen : r₁.openInstance reply realm = (.error f, r₁)) (h : r₂.sources = r₁.sources) :
    r₂.openInstance reply realm = (.error f, r₂) := by
  rw [openInstance_congr h, hopen, ← h]

theorem openInstance_of_ok {r₁ r₂ : Registry} {s : DataSource}
    (hopen : r₁.openInstance reply realm = (.ok i, r₁.addSource s))
    (h : r₂.sources = r₁.sources) :
    r₂.openInstance reply realm = (.ok i, r₂.addSource s) := by
  rw [openInstance_congr h, hopen]
  simp only [addSource, h]

/-! ### The instance of a realm -/

/-- A call that meets an empty cell gives it up again when no instance can be opened. -/
theorem run_entering_of_error {slot : Nat} (hlt : slot < r.cells.length)
    (hcell : r.cell slot = .empty) (hrealm : r.realms.get? id = some realm) {f : Failure}
    (hopen : r.openInstance reply realm = (.error f, r)) (n : Nat) :
    (Call.entering id slot).run reply (n + 3) r = (.returned (.error f), r) := by
  have hread : (r.setCell slot .reserved).realms.get? id = some realm := hrealm
  have hsame : (r.setCell slot .reserved).openInstance reply realm =
      (.error f, r.setCell slot .reserved) := openInstance_of_error hopen rfl
  simp only [Call.run, Call.step, hcell, hread, hsame, giveUp, Call.run_returned,
    setCell_setCell_eq_self hlt hcell]

/-- A call that meets an empty cell fills it with the instance that it opens. -/
theorem run_entering_of_ok {slot : Nat} (hcell : r.cell slot = .empty)
    (hrealm : r.realms.get? id = some realm) {s : DataSource}
    (hopen : r.openInstance reply realm = (.ok i, r.addSource s)) (n : Nat) :
    (Call.entering id slot).run reply (n + 4) r =
      (.returned (.ok i), (r.addSource s).setCell slot (.filled i)) := by
  have hread : (r.setCell slot .reserved).realms.get? id = some realm := hrealm
  have hsame : (r.setCell slot .reserved).openInstance reply realm =
      (.ok i, (r.setCell slot .reserved).addSource s) := openInstance_of_ok hopen rfl
  have hcells : ((r.setCell slot .reserved).addSource s).setCell slot (.filled i) =
      (r.addSource s).setCell slot (.filled i) := setCell_setCell (r.addSource s) slot _ _
  simp only [Call.run, Call.step, hcell, hread, hsame, Call.run_returned, hcells]

/-- An instance that runs is returned, and nothing changes. -/
theorem getOrConfigure_running (h : r.running id = some i) (reply : Backend → Reply) :
    r.getOrConfigure reply id = (.ok i, r) := by
  obtain ⟨slot, hslot, hfilled⟩ := running_eq_some_iff.mp h
  simp only [getOrConfigure, maxSteps, Call.run, Call.step, hslot, hfilled, Call.result]

/-- A realm that is not known and has no slot is not found, and nothing changes. -/
theorem getOrConfigure_unknown (hslot : r.slots.get? id = none)
    (hrealm : r.realms.get? id = none) (reply : Backend → Reply) :
    r.getOrConfigure reply id = (.error (unknown id), r) := by
  have hknown : r.realms.contains id = false := by rw [KeyedList.contains, hrealm]; rfl
  simp only [getOrConfigure, maxSteps, Call.run, Call.step, hslot, hknown, Bool.false_eq_true,
    if_false, Call.result]

/-- Slots stay proper when a data source is added. -/
theorem HasProperSlots.addSource (h : r.HasProperSlots) (s : DataSource) :
    (r.addSource s).HasProperSlots :=
  ⟨h.known, h.lt_length, h.injective, h.ne_reserved⟩

/-- A realm that is not known has no slot. -/
theorem HasProperSlots.get?_eq_none (h : r.HasProperSlots) (hrealm : r.realms.get? id = none) :
    r.slots.get? id = none := by
  cases hslot : r.slots.get? id with
  | none => rfl
  | some slot =>
      obtain ⟨realm, hknown⟩ := h.known hslot
      rw [hrealm] at hknown
      cases hknown

/-- The cell of a realm that does not run is empty, when slots are proper. -/
theorem HasProperSlots.cell_eq_empty (h : r.HasProperSlots) {slot : Nat}
    (hslot : r.slots.get? id = some slot) (hrunning : r.running id = none) :
    r.cell slot = .empty := by
  rw [running, hslot, Option.bind_some] at hrunning
  cases hc : r.cell slot with
  | empty => rfl
  | reserved => exact absurd hc (h.ne_reserved hslot)
  | filled j => rw [hc] at hrunning; cases hrunning

/-- A call for a realm with a slot looks into its cell. -/
theorem run_finding_of_some {slot : Nat} (hslot : r.slots.get? id = some slot) (n : Nat) :
    (Call.finding id).run reply (n + 1) r = (Call.entering id slot).run reply n r := by
  simp only [Call.run, Call.step, hslot]

/-- A call for a realm without a slot makes one, and meets its empty cell. -/
theorem run_finding_of_none (hslot : r.slots.get? id = none)
    (hrealm : r.realms.get? id = some realm) (n : Nat) :
    (Call.finding id).run reply (n + 3) r =
      (Call.entering id r.cells.length).run reply n (r.addSlot id .empty) := by
  have hknown : r.realms.contains id = true := by rw [KeyedList.contains, hrealm]; rfl
  simp only [Call.run, Call.step, hslot, hknown, if_true]

/-- **A call for a known realm that does not run** comes to an empty cell in the slot of the
realm, which it has made if there was none. -/
theorem exists_run_entering (h : r.HasProperSlots) (hrealm : r.realms.get? id = some realm)
    (hrunning : r.running id = none) (reply : Backend → Reply) :
    ∃ slot n, (Call.finding id).run reply maxSteps r =
        (Call.entering id slot).run reply (n + 4) (r.claim id) ∧
      slot < (r.claim id).cells.length ∧ (r.claim id).cell slot = .empty ∧
        ∀ i s, ((r.claim id).addSource s).setCell slot (.filled i) =
          (r.addSource s).install id i := by
  cases hslot : r.slots.get? id with
  | some slot =>
      have hclaim : r.claim id = r := by rw [claim, hslot]
      have hinstall (i : Instance) (s : DataSource) :
          (r.addSource s).install id i = (r.addSource s).setCell slot (.filled i) := by
        have hsame : (r.addSource s).slots.get? id = some slot := hslot
        rw [install, hsame]
      rw [hclaim]
      exact ⟨slot, 2, run_finding_of_some hslot 6, h.lt_length hslot,
        h.cell_eq_empty hslot hrunning, fun i s => (hinstall i s).symm⟩
  | none =>
      have hclaim : r.claim id = r.addSlot id .empty := by rw [claim, hslot]
      have hlt : r.cells.length < (r.addSlot id .empty).cells.length := by simp [addSlot]
      have hcell : (r.addSlot id .empty).cell r.cells.length = .empty := by
        rw [cell_addSlot, if_pos rfl]
      have hinstall (i : Instance) (s : DataSource) :
          (r.addSource s).install id i = (r.addSource s).addSlot id (.filled i) := by
        have hsame : (r.addSource s).slots.get? id = none := hslot
        rw [install, hsame]
      rw [hclaim]
      exact ⟨r.cells.length, 0, run_finding_of_none hslot hrealm 4, hlt, hcell,
        fun i s => (setCell_addSlot (r.addSource s) id _ _).trans (hinstall i s).symm⟩

/-- A slot that is made for a realm changes nothing else. -/
theorem claim_eq (r : Registry) (id : String) :
    (r.claim id).realms = r.realms ∧ (r.claim id).sources = r.sources ∧
      (r.claim id).retired = r.retired := by
  rw [claim]
  cases r.slots.get? id <;> exact ⟨rfl, rfl, rfl⟩

/-- **A known realm that cannot be opened** fails as its opening does. It has a slot behind
the call, and nothing is in it. -/
theorem getOrConfigure_of_error (h : r.HasProperSlots) (hrealm : r.realms.get? id = some realm)
    (hrunning : r.running id = none) {f : Failure}
    (hopen : r.openInstance reply realm = (.error f, r)) :
    r.getOrConfigure reply id = (.error f, r.claim id) := by
  obtain ⟨slot, n, hfind, hlt, hcell, -⟩ := exists_run_entering h hrealm hrunning reply
  have hknown : (r.claim id).realms.get? id = some realm := (r.claim_eq id).1 ▸ hrealm
  have hsame := openInstance_of_error hopen (r.claim_eq id).2.1
  rw [getOrConfigure, hfind, run_entering_of_error hlt hcell hknown hsame (n + 1)]
  rfl

/-- **A known realm that is opened** runs behind the call, in its slot. -/
theorem getOrConfigure_of_ok (h : r.HasProperSlots) (hrealm : r.realms.get? id = some realm)
    (hrunning : r.running id = none) {s : DataSource}
    (hopen : r.openInstance reply realm = (.ok i, r.addSource s)) :
    r.getOrConfigure reply id = (.ok i, (r.addSource s).install id i) := by
  obtain ⟨slot, n, hfind, -, hcell, hinstall⟩ := exists_run_entering h hrealm hrunning reply
  have hknown : (r.claim id).realms.get? id = some realm := (r.claim_eq id).1 ▸ hrealm
  have hsame := openInstance_of_ok hopen (r.claim_eq id).2.1
  rw [getOrConfigure, hfind, run_entering_of_ok hcell hknown hsame n, hinstall]
  rfl

/-! ### A new configuration -/

/-- An instance takes the place of what the realm runs, which is handed to a close. -/
theorem run_replacing (h : r.HasProperSlots) (n : Nat) :
    (Call.replacing i).run reply (n + 2) { r with realms := r.realms.insert i.realm.id i.realm } =
      (.returned (.ok i), (r.adopt i).retireInstance (r.running i.realm.id)) := by
  cases hslot : r.slots.get? i.realm.id with
  | some old =>
      have hold : old ≠ r.cells.length := Nat.ne_of_lt (h.lt_length hslot)
      have hcell : (r.adopt i).cell old = r.cell old :=
        (cell_addSlot _ _ _ old).trans (if_neg hold)
      rw [running, hslot, Option.bind_some, ← hcell, ← retireSlot_eq]
      simp only [Call.run, Call.step, hslot, Call.run_returned, adopt]
  | none =>
      rw [running, hslot, Option.bind_none, retireInstance]
      simp only [Call.run, Call.step, hslot, Call.run_returned, adopt]

/-- **A new configuration is refused and nothing changes, or it is stored and runs**, and
what ran before is handed to a close. -/
theorem reconfigure_cases (h : r.HasProperSlots) (reply : Backend → Reply)
    (realm : RealmConfig) :
    (∃ f, r.reconfigure reply realm = (.error f, r)) ∨
      ∃ i s, i.realm = realm ∧ i.source = r.sources.length ∧ i.IsConfiguredWith s ∧
        r.reconfigure reply realm =
          (.ok i, ((r.addSource s).adopt i).retireInstance (r.running realm.id)) := by
  cases hcheck : realm.check with
  | error f =>
      refine Or.inl ⟨f, ?_⟩
      simp only [reconfigure, maxSteps, Call.run, Call.step, hcheck, Call.result]
  | ok =>
      rcases openInstance_cases reply realm r with ⟨f, hopen⟩ | ⟨i, s, hopen, hrealm, hsource, hi⟩
      · refine Or.inl ⟨f, ?_⟩
        simp only [reconfigure, maxSteps, Call.run, Call.step, hcheck, hopen, Call.result]
      · refine Or.inr ⟨i, s, hrealm, hsource, hi, ?_⟩
        have hstart (n : Nat) : (Call.validating realm).run reply (n + 2) r =
            (Call.replacing i).run reply n
              { r.addSource s with realms := r.realms.insert i.realm.id i.realm } := by
          simp only [Call.run, Call.step, hcheck, hopen, addSource]
        have hrun : (Call.replacing i).run reply 5
              { r.addSource s with realms := r.realms.insert i.realm.id i.realm } =
            (.returned (.ok i),
              ((r.addSource s).adopt i).retireInstance (r.running i.realm.id)) :=
          run_replacing (h.addSource s) 3
        rw [hrealm] at hrun
        rw [reconfigure, maxSteps, hstart 5, hrealm, hrun]
        rfl

end

/-! ### Closing -/

/-- A call that closes hands what is in its slots to a close, one after the other. -/
theorem run_releasing (reply : Backend → Reply) (slots : List Nat) (r : Registry) :
    ((Call.releasing slots).run reply slots.length r).2 = slots.foldl retireSlot r := by
  induction slots generalizing r with
  | nil => rfl
  | cons slot slots ih => exact ih (r.retireSlot slot)

/-- **Closing takes every slot away** and hands what ran in them to a close. -/
theorem close_eq (r : Registry) (reply : Backend → Reply) :
    r.close reply =
      (r.slots.entries.map Prod.snd).foldl retireSlot { r with slots := .empty } := by
  have hlength : (r.slots.entries.map Prod.snd).length = r.slots.size := List.length_map _
  rw [close, Nat.add_comm, ← run_releasing reply, hlength]
  rfl

/-! ### All calls -/

/-- A whole call on a registry. -/
inductive Request where
  /-- Asks for the instance of a realm. -/
  | get (id : String)
  /-- Brings a new configuration. -/
  | validate (realm : RealmConfig)
  /-- Closes everything. -/
  | close

/-- What a call returns: an instance unless it failed, and nothing when it closes. -/
abbrev Outcome := Option (Except Failure Instance)

/-- What a call returns, and the registry behind it. -/
def Request.serve (reply : Backend → Reply) (r : Registry) : Request → Outcome × Registry
  | get id => (some (r.getOrConfigure reply id).1, (r.getOrConfigure reply id).2)
  | validate realm => (some (r.reconfigure reply realm).1, (r.reconfigure reply realm).2)
  | close => (none, r.close reply)

/-- The cases of a whole call: what it returns, with the registry behind it. -/
inductive Served (r : Registry) (reply : Backend → Reply) : Request → Outcome × Registry → Prop
  /-- The realm runs. -/
  | running {id : String} {i : Instance} (hrunning : r.running id = some i) :
      Served r reply (.get id) (some (.ok i), r)
  /-- The realm is not known. -/
  | unknown {id : String} (hrealm : r.realms.get? id = none) :
      Served r reply (.get id) (some (.error (unknown id)), r)
  /-- The realm cannot be opened. -/
  | failed {id : String} {realm : RealmConfig} {f : Failure}
      (hrealm : r.realms.get? id = some realm) (hrunning : r.running id = none)
      (hopen : r.openInstance reply realm = (.error f, r)) :
      Served r reply (.get id) (some (.error f), r.claim id)
  /-- The realm is opened. -/
  | opened {id : String} {i : Instance} {s : DataSource}
      (hrealm : r.realms.get? id = some i.realm) (hrunning : r.running id = none)
      (hopen : r.openInstance reply i.realm = (.ok i, r.addSource s))
      (hsource : i.source = r.sources.length) (hi : i.IsConfiguredWith s) :
      Served r reply (.get id) (some (.ok i), (r.addSource s).install id i)
  /-- The new configuration is refused. -/
  | refused {realm : RealmConfig} {f : Failure} :
      Served r reply (.validate realm) (some (.error f), r)
  /-- The new configuration is accepted. -/
  | accepted {i : Instance} {s : DataSource} (hsource : i.source = r.sources.length)
      (hi : i.IsConfiguredWith s) :
      Served r reply (.validate i.realm)
        (some (.ok i), ((r.addSource s).adopt i).retireInstance (r.running i.realm.id))
  /-- Everything is closed. -/
  | closed :
      Served r reply .close
        (none, (r.slots.entries.map Prod.snd).foldl retireSlot { r with slots := .empty })

/-- **Every whole call is one of the cases.** -/
theorem HasProperSlots.served (h : r.HasProperSlots) (reply : Backend → Reply) (q : Request) :
    r.Served reply q (q.serve reply r) := by
  cases q with
  | get id =>
      rw [Request.serve]
      cases hrunning : r.running id with
      | some i =>
          rw [getOrConfigure_running hrunning]
          exact .running hrunning
      | none =>
          cases hrealm : r.realms.get? id with
          | none =>
              rw [getOrConfigure_unknown (h.get?_eq_none hrealm) hrealm]
              exact .unknown hrealm
          | some realm =>
              rcases openInstance_cases reply realm r with
                ⟨f, hopen⟩ | ⟨i, s, hopen, rfl, hsource, hi⟩
              · rw [getOrConfigure_of_error h hrealm hrunning hopen]
                exact .failed hrealm hrunning hopen
              · rw [getOrConfigure_of_ok h hrealm hrunning hopen]
                exact .opened hrealm hrunning hopen hsource hi
  | validate realm =>
      rw [Request.serve]
      rcases reconfigure_cases h reply realm with ⟨f, heq⟩ | ⟨i, s, rfl, hsource, hi, heq⟩
      · rw [heq]
        exact .refused
      · rw [heq]
        exact .accepted hsource hi
  | close =>
      rw [Request.serve, close_eq]
      exact .closed

end Registry

end RealmDirectory
