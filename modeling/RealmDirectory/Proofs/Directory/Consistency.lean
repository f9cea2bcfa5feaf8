import Mathlib.Tactic.Tauto
import RealmDirectory.Proofs.Directory.WholeCall

/-!
# The consistency of a registry

The realms, the slots with their cells, and the data sources of a registry belong together.
Slots are of known realms; what runs in a slot was configured from the configuration that is
stored for its realm; and every data source that was opened is the source of one instance in
a slot, or was handed to a close.

Within a call a data source can be in neither place for a while: it was just opened, or its
slot was taken away and it is not closed yet. Such data sources are *pending*. Between calls
there are none, and every whole call keeps it that way, whatever the databases say.

## Main definitions

* `Registry.IsAccounted`: where the data sources are.
* `Registry.IsConsistent`: the invariant.

## Main results

* `IsAccounted.place`, `IsConsistent.place`: an instance goes into its slot.
* `IsConsistent.addSource`, `IsConsistent.retire`: a data source is opened, and closed.
* `IsConsistent.drain`, `IsConsistent.retireSlots`: what ran is pending when all slots are taken
  away, and is closed.
* `IsConsistent.serve`: whole calls keep the invariant.
-/

namespace RealmDirectory.Registry

variable {r r' : Registry} {id : String} {i : Instance} {pending : List Nat}

/-! ### The invariant -/

/-- A data source belongs to an instance in a slot. -/
def Holds (r : Registry) (n : Nat) : Prop := ∃ id i, r.running id = some i ∧ i.source = n

/-- Every data source that was opened is in one place: it belongs to one instance in a slot,
or was handed to a close, or is pending. Those that were handed to a close give no
connections. -/
structure IsAccounted (r : Registry) (pending : List Nat) : Prop where
  injective : ∀ {id id' i i'}, r.running id = some i → r.running id' = some i' →
    i.source = i'.source → id = id'
  lt_length_iff : ∀ n, n < r.sources.length ↔ r.Holds n ∨ n ∈ pending ++ r.retired
  notMem_of_holds : ∀ {n}, r.Holds n → n ∉ pending ++ r.retired
  nodup : (pending ++ r.retired).Nodup
  closed : ∀ n ∈ r.retired, (r.source n).active = none

/-- Slots are proper, what runs was configured from what is stored, and the data sources are
accounted for. -/
structure IsConsistent (r : Registry) (pending : List Nat) : Prop where
  slots : r.HasProperSlots
  current : ∀ {id i}, r.running id = some i →
    r.realms.get? id = some i.realm ∧ i.IsConfiguredWith (r.source i.source)
  accounted : r.IsAccounted pending

/-- A registry without slots has proper slots. -/
theorem hasProperSlots_of_empty (h : r.slots = .empty) : r.HasProperSlots := by
  have hslot {id : String} {slot : Nat} : r.slots.get? id ≠ some slot := by
    rw [h]
    exact nofun
  exact ⟨fun hold => absurd hold hslot, fun hold => absurd hold hslot,
    fun hold => absurd hold hslot, fun hold => absurd hold hslot⟩

/-- Nothing runs in a registry without slots. -/
theorem running_ne_of_empty (h : r.slots = .empty) : r.running id ≠ some i := by
  have hnone : r.running id = none := by
    rw [running, h]
    rfl
  rw [hnone]
  exact (Option.some_ne_none i).symm

/-- A registry without slots is consistent when its data sources are accounted for without
them. -/
theorem isConsistent_of_empty (h : r.slots = .empty)
    (hlength : ∀ n, n < r.sources.length ↔ n ∈ pending ++ r.retired)
    (hnodup : (pending ++ r.retired).Nodup)
    (hclosed : ∀ n ∈ r.retired, (r.source n).active = none) : r.IsConsistent pending := by
  have hheld {n : Nat} : ¬ r.Holds n := fun ⟨_, _, hi, _⟩ => running_ne_of_empty h hi
  exact
    { slots := hasProperSlots_of_empty h
      current := fun hi => absurd hi (running_ne_of_empty h)
      accounted :=
        { injective := fun hi => absurd hi (running_ne_of_empty h)
          lt_length_iff := fun n => (hlength n).trans (or_iff_right hheld).symm
          notMem_of_holds := fun hn => absurd hn hheld
          nodup := hnodup
          closed := hclosed } }

/-- A registry on which nothing was called is consistent. -/
theorem isConsistent_ofRealms (realms : List RealmConfig) : (ofRealms realms).IsConsistent [] := by
  refine isConsistent_of_empty rfl (fun n => ?_) List.nodup_nil
    fun n hn => absurd hn List.not_mem_nil
  exact iff_of_false (Nat.not_lt_zero n) List.not_mem_nil

/-! ### Slots -/

theorem get?_addSlot (r : Registry) (id : String) (c : Cell) (id' : String) :
    (r.addSlot id c).slots.get? id' =
      if id' = id then some r.cells.length else r.slots.get? id' :=
  KeyedList.get?_insert _ _ _ _

/-- A new slot holds its cell, and the others hold what they held. -/
theorem running_addSlot (h : r.HasProperSlots) (id : String) (c : Cell) (id' : String) :
    (r.addSlot id c).running id' = if id' = id then c.instance? else r.running id' := by
  rw [running, get?_addSlot]
  split
  · rw [Option.bind_some, cell_addSlot, if_pos rfl]
  · cases hslot : r.slots.get? id' with
    | none => rw [running, hslot]; rfl
    | some slot =>
        have hne : slot ≠ r.cells.length := Nat.ne_of_lt (h.lt_length hslot)
        rw [Option.bind_some, cell_addSlot, if_neg hne, running, hslot, Option.bind_some]

theorem HasProperSlots.addSlot (h : r.HasProperSlots) {realm : RealmConfig}
    (hrealm : r.realms.get? id = some realm) {c : Cell} (hc : c ≠ .reserved) :
    (r.addSlot id c).HasProperSlots := by
  have hlength : (r.addSlot id c).cells.length = r.cells.length + 1 := by simp [Registry.addSlot]
  -- The new slot has the next cell, which no other slot has.
  have hcases {id' slot} (hslot : (r.addSlot id c).slots.get? id' = some slot) :
      id' = id ∧ slot = r.cells.length ∨ id' ≠ id ∧ r.slots.get? id' = some slot := by
    rw [get?_addSlot] at hslot
    split at hslot
    · next heq => exact Or.inl ⟨heq, (Option.some.inj hslot).symm⟩
    · next hne => exact Or.inr ⟨hne, hslot⟩
  refine ⟨?_, ?_, ?_, ?_⟩
  · intro id' slot hslot
    rcases hcases hslot with ⟨rfl, -⟩ | ⟨-, hold⟩
    · exact ⟨realm, hrealm⟩
    · exact h.known hold
  · intro id' slot hslot
    rcases hcases hslot with ⟨-, rfl⟩ | ⟨-, hold⟩
    · omega
    · have := h.lt_length hold
      omega
  · intro id₁ id₂ slot h₁ h₂
    rcases hcases h₁ with ⟨rfl, rfl⟩ | ⟨-, hold₁⟩
    · rcases hcases h₂ with ⟨rfl, -⟩ | ⟨-, hold₂⟩
      · rfl
      · exact absurd (h.lt_length hold₂) (Nat.lt_irrefl _)
    · rcases hcases h₂ with ⟨rfl, rfl⟩ | ⟨-, hold₂⟩
      · exact absurd (h.lt_length hold₁) (Nat.lt_irrefl _)
      · exact h.injective hold₁ hold₂
  · intro id' slot hslot
    rw [cell_addSlot]
    rcases hcases hslot with ⟨-, rfl⟩ | ⟨-, hold⟩
    · rwa [if_pos rfl]
    · rw [if_neg (Nat.ne_of_lt (h.lt_length hold))]
      exact h.ne_reserved hold

/-- The slot of a realm holds another cell, and the others hold what they held. -/
theorem running_setCell (h : r.HasProperSlots) {slot : Nat} (hslot : r.slots.get? id = some slot)
    (c : Cell) (id' : String) :
    (r.setCell slot c).running id' = if id' = id then c.instance? else r.running id' := by
  have hsame : (r.setCell slot c).slots.get? id' = r.slots.get? id' := rfl
  rw [running, running, hsame]
  split
  · next heq => rw [heq, hslot, Option.bind_some, cell_setCell (h.lt_length hslot), if_pos rfl]
  · next hne =>
      cases hslot' : r.slots.get? id' with
      | none => rfl
      | some slot' =>
          have hcell : slot' ≠ slot := fun heq => hne (h.injective hslot' (heq ▸ hslot))
          rw [Option.bind_some, Option.bind_some, cell_setCell (h.lt_length hslot), if_neg hcell]

theorem HasProperSlots.setCell (h : r.HasProperSlots) {slot : Nat} (hlt : slot < r.cells.length)
    {c : Cell} (hc : c ≠ .reserved) : (r.setCell slot c).HasProperSlots := by
  refine ⟨h.known, ?_, h.injective, ?_⟩
  · intro id slot' hslot
    rw [Registry.setCell, List.length_set]
    exact h.lt_length hslot
  · intro id slot' hslot
    rw [cell_setCell hlt]
    split
    · exact hc
    · exact h.ne_reserved hslot

/-! ### An instance in its slot -/

/-- The registry `r'` is `r` with an instance in the slot of a realm, and with the
configuration of the instance stored for the realm. -/
structure Places (r : Registry) (id : String) (i : Instance) (r' : Registry) : Prop where
  slots : r'.HasProperSlots
  realms : ∀ id', r'.realms.get? id' = if id' = id then some i.realm else r.realms.get? id'
  running : ∀ id', r'.running id' = if id' = id then some i else r.running id'
  sources : r'.sources = r.sources
  retired : r'.retired = r.retired

/-- Installing places an instance whose configuration is stored. -/
theorem places_install (h : r.HasProperSlots) (hrealm : r.realms.get? id = some i.realm) :
    r.Places id i (r.install id i) := by
  have hrealms (id' : String) :
      r.realms.get? id' = if id' = id then some i.realm else r.realms.get? id' := by
    split
    · next heq => rw [heq, hrealm]
    · rfl
  cases hslot : r.slots.get? id with
  | some slot =>
      have hinstall : r.install id i = r.setCell slot (.filled i) := by rw [install, hslot]
      rw [hinstall]
      exact
        { slots := h.setCell (h.lt_length hslot) Cell.noConfusion
          realms := hrealms
          running := running_setCell h hslot (.filled i)
          sources := rfl
          retired := rfl }
  | none =>
      have hinstall : r.install id i = r.addSlot id (.filled i) := by rw [install, hslot]
      rw [hinstall]
      exact
        { slots := h.addSlot hrealm Cell.noConfusion
          realms := hrealms
          running := running_addSlot h id (.filled i)
          sources := rfl
          retired := rfl }

/-- Adopting places an instance and stores its configuration. -/
theorem places_adopt (h : r.HasProperSlots) (i : Instance) :
    r.Places i.realm.id i (r.adopt i) := by
  have hrealms (id : String) : (r.realms.insert i.realm.id i.realm).get? id =
      if id = i.realm.id then some i.realm else r.realms.get? id := KeyedList.get?_insert _ _ _ _
  have hstored : { r with realms := r.realms.insert i.realm.id i.realm }.HasProperSlots := by
    refine ⟨fun {id slot} hslot => ?_, h.lt_length, h.injective, h.ne_reserved⟩
    rw [hrealms]
    split
    · exact ⟨i.realm, rfl⟩
    · exact h.known hslot
  exact
    { slots := hstored.addSlot ((hrealms _).trans (if_pos rfl)) Cell.noConfusion
      realms := hrealms
      running := running_addSlot hstored _ (.filled i)
      sources := rfl
      retired := rfl }

/-- A data source belongs to an instance in the slot of another realm. -/
def HoldsElsewhere (r : Registry) (id : String) (n : Nat) : Prop :=
  ∃ id' j, id' ≠ id ∧ r.running id' = some j ∧ j.source = n

/-- The data source of the instance in the slot of a realm. -/
def sourcesOf (r : Registry) (id : String) : List Nat :=
  ((r.running id).map Instance.source).toList

theorem mem_sourcesOf_iff {n : Nat} :
    n ∈ r.sourcesOf id ↔ ∃ j, r.running id = some j ∧ j.source = n := by
  simp [sourcesOf]

theorem nodup_sourcesOf (r : Registry) (id : String) : (r.sourcesOf id).Nodup := by
  rw [sourcesOf]
  cases r.running id <;> simp

theorem holds_of_mem_sourcesOf {n : Nat} (h : n ∈ r.sourcesOf id) : r.Holds n := by
  obtain ⟨j, hj, hn⟩ := mem_sourcesOf_iff.mp h
  exact ⟨id, j, hj, hn⟩

theorem holds_iff (r : Registry) (id : String) (n : Nat) :
    r.Holds n ↔ n ∈ r.sourcesOf id ∨ r.HoldsElsewhere id n := by
  constructor
  · rintro ⟨id', j, hj, hn⟩
    by_cases heq : id' = id
    · exact Or.inl (mem_sourcesOf_iff.mpr ⟨j, heq ▸ hj, hn⟩)
    · exact Or.inr ⟨id', j, heq, hj, hn⟩
  · rintro (hn | ⟨id', j, -, hj, hn⟩)
    · exact holds_of_mem_sourcesOf hn
    · exact ⟨id', j, hj, hn⟩

/-- What is held behind an instance is held with it or was held elsewhere. -/
theorem Places.holds_iff (hp : r.Places id i r') (n : Nat) :
    r'.Holds n ↔ i.source = n ∨ r.HoldsElsewhere id n := by
  constructor
  · rintro ⟨id', j, hj, hn⟩
    rw [hp.running] at hj
    split at hj
    · exact Or.inl (Option.some.inj hj ▸ hn)
    · next hne => exact Or.inr ⟨id', j, hne, hj, hn⟩
  · rintro (hn | ⟨id', j, hne, hj, hn⟩)
    · exact ⟨id, i, by rw [hp.running, if_pos rfl], hn⟩
    · exact ⟨id', j, by rw [hp.running, if_neg hne, hj], hn⟩

/-- **A pending data source goes into a slot with its instance**, and the one that was there
is pending. -/
theorem IsAccounted.place (h : r.IsAccounted (i.source :: pending)) (hp : r.Places id i r') :
    r'.IsAccounted (r.sourcesOf id ++ pending) := by
  have hnew : ¬ r.Holds i.source := fun hheld =>
    h.notMem_of_holds hheld List.mem_cons_self
  have hfresh : i.source ∉ pending ++ r.retired := (List.nodup_cons.mp h.nodup).1
  refine ⟨?_, ?_, ?_, ?_, ?_⟩
  · -- The new source differs from every other one that is held.
    intro id₁ id₂ i₁ i₂ h₁ h₂ hsource
    rw [hp.running] at h₁ h₂
    split at h₁ <;> split at h₂
    · next heq₁ heq₂ => rw [heq₁, heq₂]
    · exact absurd ⟨id₂, i₂, h₂, hsource.symm.trans (Option.some.inj h₁ ▸ rfl)⟩ hnew
    · exact absurd ⟨id₁, i₁, h₁, hsource.trans (Option.some.inj h₂ ▸ rfl)⟩ hnew
    · exact h.injective h₁ h₂ hsource
  · intro n
    rw [hp.sources, hp.retired, h.lt_length_iff, holds_iff r id, hp.holds_iff]
    simp only [List.mem_append, List.mem_cons, eq_comm (a := n)]
    tauto
  · intro n hn
    rw [hp.retired, List.append_assoc, List.mem_append]
    rcases (hp.holds_iff n).mp hn with rfl | ⟨id', j, hne, hj, rfl⟩
    · rintro (hmem | hmem)
      · exact hnew (holds_of_mem_sourcesOf hmem)
      · exact hfresh hmem
    · have hother : r.Holds j.source := ⟨id', j, hj, rfl⟩
      rintro (hmem | hmem)
      · obtain ⟨k, hk, hsource⟩ := mem_sourcesOf_iff.mp hmem
        exact hne (h.injective hj hk hsource.symm)
      · exact h.notMem_of_holds hother (List.mem_cons_of_mem _ hmem)
  · rw [hp.retired, List.append_assoc]
    refine List.nodup_append.mpr ⟨r.nodup_sourcesOf id, (List.nodup_cons.mp h.nodup).2, ?_⟩
    rintro n hn m hm rfl
    exact h.notMem_of_holds (holds_of_mem_sourcesOf hn) (List.mem_cons_of_mem _ hm)
  · intro n hn
    rw [hp.retired] at hn
    rw [source, hp.sources]
    exact h.closed n hn

/-- **An instance that was configured with its pending data source goes into a slot.** -/
theorem IsConsistent.place (h : r.IsConsistent (i.source :: pending)) (hp : r.Places id i r')
    (hi : i.IsConfiguredWith (r.source i.source)) :
    r'.IsConsistent (r.sourcesOf id ++ pending) where
  slots := hp.slots
  current {id' j} hj := by
    rw [hp.running] at hj
    rw [hp.realms, source, hp.sources]
    split at hj
    · next heq =>
        obtain rfl := Option.some.inj hj
        exact ⟨if_pos heq, hi⟩
    · next hne =>
        obtain ⟨hrealm, hconf⟩ := h.current hj
        exact ⟨(if_neg hne).trans hrealm, hconf⟩
  accounted := h.accounted.place hp

/-! ### Data sources outside slots -/

theorem length_addSource (r : Registry) (s : DataSource) :
    (r.addSource s).sources.length = r.sources.length + 1 := by
  rw [addSource, List.length_append, List.length_singleton]

/-- A data source of an instance in a slot was opened. -/
theorem IsAccounted.lt_length (h : r.IsAccounted pending) (hi : r.running id = some i) :
    i.source < r.sources.length :=
  (h.lt_length_iff _).mpr (Or.inl ⟨id, i, hi, rfl⟩)

/-- **A data source that was just opened is pending.** -/
theorem IsConsistent.addSource (h : r.IsConsistent pending) (s : DataSource) :
    (r.addSource s).IsConsistent (r.sources.length :: pending) := by
  have hlt {n : Nat} (hn : r.Holds n ∨ n ∈ pending ++ r.retired) : n < r.sources.length :=
    (h.accounted.lt_length_iff n).mpr hn
  refine ⟨h.slots.addSource s, ?_, ?_⟩
  · intro id i hi
    have hold := h.current hi
    have hne : i.source ≠ r.sources.length := Nat.ne_of_lt (h.accounted.lt_length hi)
    rw [source_addSource, if_neg hne]
    exact hold
  · refine ⟨h.accounted.injective, ?_, ?_, ?_, ?_⟩
    · intro n
      have hheld : (r.addSource s).Holds n ↔ r.Holds n := Iff.rfl
      have hold := h.accounted.lt_length_iff n
      rw [length_addSource, hheld, List.cons_append, List.mem_cons, Nat.lt_succ_iff_lt_or_eq]
      show _ ↔ r.Holds n ∨ n = r.sources.length ∨ n ∈ pending ++ r.retired
      tauto
    · intro n hn hmem
      rcases List.mem_cons.mp hmem with rfl | hmem
      · exact absurd (hlt (Or.inl hn)) (Nat.lt_irrefl _)
      · exact h.accounted.notMem_of_holds hn hmem
    · refine List.nodup_cons.mpr ⟨fun hmem => ?_, h.accounted.nodup⟩
      exact absurd (hlt (Or.inr hmem)) (Nat.lt_irrefl _)
    · intro n hn
      have hne : n ≠ r.sources.length :=
        Nat.ne_of_lt (hlt (Or.inr (List.mem_append_right _ hn)))
      rw [source_addSource, if_neg hne]
      exact h.accounted.closed n hn

/-- A data source that was closed gives no connections. -/
theorem active_close (s : DataSource) : s.close.active = none := rfl

/-- **A pending data source is handed to a close.** -/
theorem IsConsistent.retire {n : Nat} (h : r.IsConsistent (n :: pending)) :
    (r.retire n).IsConsistent pending := by
  have hlt : n < r.sources.length :=
    (h.accounted.lt_length_iff n).mpr (Or.inr List.mem_cons_self)
  have hlength : (r.retire n).sources.length = r.sources.length := List.length_set
  have hheld {m : Nat} : (r.retire n).Holds m ↔ r.Holds m := Iff.rfl
  -- The data sources outside slots are the same, in another order.
  have hperm : (pending ++ (r.retire n).retired).Perm (n :: pending ++ r.retired) := by
    have hmoved : (pending ++ (r.retired ++ [n])).Perm ((pending ++ r.retired) ++ [n]) := by
      rw [List.append_assoc]
    exact hmoved.trans (List.perm_append_singleton n (pending ++ r.retired))
  have hslots : (r.retire n).HasProperSlots :=
    ⟨h.slots.known, h.slots.lt_length, h.slots.injective, h.slots.ne_reserved⟩
  refine ⟨hslots, ?_, ?_⟩
  · intro id i hi
    have hold := h.current hi
    have hne : i.source ≠ n := by
      rintro rfl
      exact h.accounted.notMem_of_holds ⟨id, i, hi, rfl⟩ List.mem_cons_self
    rw [source_retire hlt, if_neg hne]
    exact hold
  · refine ⟨h.accounted.injective, ?_, ?_, ?_, ?_⟩
    · intro m
      rw [hlength, hheld, hperm.mem_iff]
      exact h.accounted.lt_length_iff m
    · intro m hm
      rw [hperm.mem_iff]
      exact h.accounted.notMem_of_holds hm
    · exact hperm.nodup_iff.mpr h.accounted.nodup
    · intro m hm
      rw [source_retire hlt]
      split
      · exact active_close _
      · next hne =>
          refine h.accounted.closed m ?_
          exact (List.mem_append.mp hm).resolve_right fun h => hne (List.mem_singleton.mp h)

/-- The data sources of the instances in a list of slots. -/
def heldIn (r : Registry) (slots : List Nat) : List Nat :=
  slots.filterMap fun slot => (r.cell slot).instance?.map Instance.source

/-- **The data sources of slots that were taken away** are handed to a close, one after the
other. -/
theorem IsConsistent.retireSlots {slots : List Nat} (h : r.IsConsistent (r.heldIn slots)) :
    (slots.foldl retireSlot r).IsConsistent [] := by
  induction slots generalizing r with
  | nil => exact h
  | cons slot slots ih =>
      rw [List.foldl_cons, retireSlot_eq]
      cases hi : (r.cell slot).instance? with
      | none =>
          have hheld : r.heldIn (slot :: slots) = r.heldIn slots := by
            simp only [heldIn, List.filterMap_cons, hi, Option.map_none]
          exact ih (hheld ▸ h)
      | some i =>
          have hheld : r.heldIn (slot :: slots) = i.source :: r.heldIn slots := by
            simp only [heldIn, List.filterMap_cons, hi, Option.map_some]
          have hretired : (r.retire i.source).IsConsistent (r.heldIn slots) := (hheld ▸ h).retire
          exact ih hretired

theorem running_of_mem {e : String × Nat} (he : e ∈ r.slots.entries) :
    r.running e.1 = (r.cell e.2).instance? := by
  rw [running, KeyedList.get?_eq_some_iff.mpr he, Option.bind_some]

/-- The slots of a registry hold what it holds. -/
theorem mem_heldIn_slots {n : Nat} :
    n ∈ r.heldIn (r.slots.entries.map Prod.snd) ↔ r.Holds n := by
  simp only [heldIn, List.mem_filterMap, List.mem_map, Option.map_eq_some_iff]
  constructor
  · rintro ⟨slot, ⟨e, he, rfl⟩, i, hi, hn⟩
    exact ⟨e.1, i, (running_of_mem he).trans hi, hn⟩
  · rintro ⟨id, i, hi, hn⟩
    obtain ⟨slot, hslot, hcell⟩ := Option.bind_eq_some_iff.mp hi
    exact ⟨slot, ⟨(id, slot), KeyedList.get?_eq_some_iff.mp hslot, rfl⟩, i, hcell, hn⟩

/-- No data source is held in two slots. -/
theorem IsAccounted.nodup_heldIn (h : r.IsAccounted pending) :
    (r.heldIn (r.slots.entries.map Prod.snd)).Nodup := by
  have hkeys : r.slots.entries.Pairwise fun e e' => e.1 ≠ e'.1 :=
    List.pairwise_map.mp r.slots.keys_nodup
  rw [heldIn, List.filterMap_map]
  refine List.pairwise_filterMap.mpr (hkeys.imp_of_mem ?_)
  intro e e' he he' hne n hn n' hn' heq
  obtain ⟨i, hi, hn⟩ := Option.map_eq_some_iff.mp hn
  obtain ⟨i', hi', hn'⟩ := Option.map_eq_some_iff.mp hn'
  exact hne (h.injective ((running_of_mem he).trans hi) ((running_of_mem he').trans hi')
    (hn.trans (heq.trans hn'.symm)))

/-- **What ran in the slots of a registry is pending when they are taken away.** -/
theorem IsConsistent.drain (h : r.IsConsistent []) :
    { r with slots := .empty }.IsConsistent (r.heldIn (r.slots.entries.map Prod.snd)) := by
  refine isConsistent_of_empty rfl (fun n => ?_) ?_ h.accounted.closed
  · rw [List.mem_append, mem_heldIn_slots]
    exact h.accounted.lt_length_iff n
  · refine List.nodup_append.mpr ⟨h.accounted.nodup_heldIn, h.accounted.nodup, ?_⟩
    rintro n hn m hm rfl
    exact h.accounted.notMem_of_holds (mem_heldIn_slots.mp hn) hm

/-! ### Whole calls -/

/-- Where the data sources are depends on what runs, and not on the slots. -/
theorem IsAccounted.congr (h : r.IsAccounted pending)
    (hrunning : ∀ id, r'.running id = r.running id) (hsources : r'.sources = r.sources)
    (hretired : r'.retired = r.retired) : r'.IsAccounted pending := by
  have hheld {n : Nat} : r'.Holds n ↔ r.Holds n := by simp only [Holds, hrunning]
  refine ⟨?_, ?_, ?_, ?_, ?_⟩
  · intro id id' i i' hi hi'
    rw [hrunning] at hi hi'
    exact h.injective hi hi'
  · intro n
    rw [hsources, hretired, hheld]
    exact h.lt_length_iff n
  · intro n hn
    rw [hretired]
    exact h.notMem_of_holds (hheld.mp hn)
  · rw [hretired]
    exact h.nodup
  · intro n hn
    rw [hretired] at hn
    rw [source, hsources]
    exact h.closed n hn

/-- A slot that is made for a realm is empty, so the same instances run. -/
theorem running_claim (h : r.HasProperSlots) (id id' : String) :
    (r.claim id).running id' = r.running id' := by
  cases hslot : r.slots.get? id with
  | some slot => rw [claim, hslot]
  | none =>
      have hclaim : r.claim id = r.addSlot id .empty := by rw [claim, hslot]
      rw [hclaim, running_addSlot h]
      split
      · next heq => rw [heq, running, hslot]; rfl
      · rfl

/-- **A slot for a known realm keeps the registry consistent.** -/
theorem IsConsistent.claim (h : r.IsConsistent []) {realm : RealmConfig}
    (hrealm : r.realms.get? id = some realm) : (r.claim id).IsConsistent [] := by
  have hrunning := running_claim h.slots id
  cases hslot : r.slots.get? id with
  | some slot =>
      have hclaim : r.claim id = r := by rw [Registry.claim, hslot]
      rw [hclaim]
      exact h
  | none =>
      have hclaim : r.claim id = r.addSlot id .empty := by rw [Registry.claim, hslot]
      rw [hclaim] at hrunning ⊢
      refine ⟨h.slots.addSlot hrealm Cell.noConfusion, ?_, h.accounted.congr hrunning rfl rfl⟩
      intro id' i hi
      rw [hrunning] at hi
      exact h.current hi

/-- An instance that was just opened is placed, and its data source is no longer pending. -/
theorem IsConsistent.placeOpened (h : r.IsConsistent []) {s : DataSource}
    (hsource : i.source = r.sources.length) (hi : i.IsConfiguredWith s)
    (hp : (r.addSource s).Places id i r') : r'.IsConsistent (r.sourcesOf id) := by
  have hpending : (r.addSource s).IsConsistent [i.source] := hsource ▸ h.addSource s
  have hconf : i.IsConfiguredWith ((r.addSource s).source i.source) := by
    rw [source_addSource, if_pos hsource]
    exact hi
  have hplaced := hpending.place hp hconf
  rwa [List.append_nil] at hplaced

/-- The instance that was replaced is handed to a close. -/
theorem IsConsistent.retireInstance {replaced : Option Instance}
    (h : r.IsConsistent (replaced.map Instance.source).toList) :
    (r.retireInstance replaced).IsConsistent [] := by
  cases replaced with
  | none => exact h
  | some i => exact IsConsistent.retire h

/-- **Every whole call keeps the registry consistent**, whatever the databases say. -/
theorem IsConsistent.serve (h : r.IsConsistent []) (reply : Backend → Reply) (q : Request) :
    (q.serve reply r).2.IsConsistent [] := by
  have hserved := h.slots.served reply q
  generalize q.serve reply r = result at hserved ⊢
  cases hserved with
  | running hrunning => exact h
  | unknown hrealm => exact h
  | failed hrealm hrunning hopen => exact h.claim hrealm
  | @opened id i s hrealm hrunning hopen hsource hi =>
      have hplaced := h.placeOpened hsource hi (places_install (h.slots.addSource s) hrealm)
      have hnone : r.sourcesOf id = [] := by rw [sourcesOf, hrunning]; rfl
      rwa [hnone] at hplaced
  | refused => exact h
  | @accepted i s hsource hi =>
      exact (h.placeOpened hsource hi (places_adopt (h.slots.addSource s) i)).retireInstance
  | closed => exact IsConsistent.retireSlots h.drain

end RealmDirectory.Registry
