import RealmDirectory.Proofs.Directory.Consistency
import RealmDirectory.Proofs.Directory.Counting

/-!
# Calls on a registry in any order

Calls on a registry overlap: between two steps of one call, others start and take steps. A
trace is what has happened so far, with the steps in their order. This module says once what
a single step can do, and follows the slots and their cells through all orders of steps.

Two things are counted for every cell, whatever the order. It is in one place: its slot
belongs to a realm, or was taken away by a call that has not looked into the cell yet, or a
call has looked into it. And it is reserved when one call has reserved it, and otherwise not.

## Main definitions

* `Registry.Trace`: a registry, the calls on it, and the steps that they took.
* `Registry.Trace.Reached`: a trace that can come about.
* `Registry.Call.Moves`: what one step of a call comes to.
* `Registry.Call.reserved`, `Registry.Call.taken`, `Registry.Call.looks`: the cells that a
  call has to do with.
* `Registry.Trace.IsOrderly`: where the cells are.

## Main results

* `Trace.reached`: every list of events leads to such a trace.
* `Call.moves`: every step is one of the cases.
* `Trace.Reached.isOrderly`: the cells are accounted for in every order of steps.
* `Call.Moves.slots_cases`, `Trace.IsOrderly.filled_iff`: what a step does to the slots and to
  what is in the cells.
-/

namespace RealmDirectory

/-- The number of calls that have reserved a cell. -/
def Cell.reservations : Cell → Nat
  | reserved => 1
  | _ => 0

@[simp] theorem Cell.reservations_empty : Cell.empty.reservations = 0 := rfl

@[simp] theorem Cell.reservations_reserved : Cell.reserved.reservations = 1 := rfl

@[simp] theorem Cell.reservations_filled (i : Instance) : (Cell.filled i).reservations = 0 := rfl

namespace Registry

/-! ### Traces -/

/-- A registry with the calls on it, and the steps that were taken so far. A step is given by
the call that took it, as it was before. -/
structure Trace where
  run : Run
  steps : List Call

/-- The call that takes a step, if one does. -/
def Run.moving (run : Run) : Event → Option Call
  | .steps n _ => run.calls[n]?
  | _ => none

/-- One more event. -/
def Trace.next (t : Trace) (e : Event) : Trace where
  run := t.run.next e
  steps := t.steps ++ (t.run.moving e).toList

/-- The trace of a registry on which nothing was called. -/
def Trace.ofRealms (realms : List RealmConfig) : Trace := ⟨⟨Registry.ofRealms realms, []⟩, []⟩

/-- The trace of a list of events on a registry on which nothing was called. -/
def Trace.of (realms : List RealmConfig) (events : List Event) : Trace :=
  events.foldl Trace.next (.ofRealms realms)

/-- A trace ends where its events lead. -/
theorem Trace.run_of (realms : List RealmConfig) (events : List Event) :
    (Trace.of realms events).run = Run.of realms events := by
  exact (List.foldl_hom Trace.run fun _ _ => rfl).symm

/-- A call before its first step. -/
inductive Call.IsStart : Call → Prop
  | gets (id : String) : IsStart (.finding id)
  | reconfigures (realm : RealmConfig) : IsStart (.validating realm)
  | closes : IsStart .draining

/-- A call behind its last step. -/
inductive Call.IsOver : Call → Prop
  | returned (result : Except Failure Instance) : IsOver (.returned result)
  | released : IsOver (.releasing [])

instance : DecidablePred Call.IsOver
  | .returned result => .isTrue (.returned result)
  | .releasing [] => .isTrue .released
  | .releasing (_ :: _) => .isFalse nofun
  | .finding _ | .knowing _ | .claiming _ | .entering _ _ | .reading _ _ | .opening _ _
  | .filling _ _ | .validating _ | .storing _ | .replacing _ | .retiring _ _ | .draining =>
      .isFalse nofun

variable {r r' : Registry} {c c' d : Call} {calls : List Call} {steps : List Call} {id : String}
  {i : Instance} {slot m n : Nat}

/-- The slots of the realms. -/
def slotNumbers (r : Registry) : List Nat := r.slots.entries.map Prod.snd

/-! ### Steps -/

/-- **What one step comes to**: the call before the step, the call behind it, and the registry
behind it. What the databases say decides between the cases. -/
inductive Call.Moves (r : Registry) : Call → Call → Registry → Prop
  | found {id : String} {slot : Nat} (hslot : r.slots.get? id = some slot) :
      Moves r (.finding id) (.entering id slot) r
  | missed {id : String} (hslot : r.slots.get? id = none) :
      Moves r (.finding id) (.knowing id) r
  | known {id : String} : Moves r (.knowing id) (.claiming id) r
  | unknown {id : String} : Moves r (.knowing id) (.returned (.error (unknown id))) r
  | joined {id : String} {slot : Nat} (hslot : r.slots.get? id = some slot) :
      Moves r (.claiming id) (.entering id slot) r
  | claimed {id : String} (hslot : r.slots.get? id = none) :
      Moves r (.claiming id) (.entering id r.cells.length) (r.addSlot id .empty)
  | met {id : String} {slot : Nat} {i : Instance} (hcell : r.cell slot = .filled i) :
      Moves r (.entering id slot) (.returned (.ok i)) r
  | waits {id : String} {slot : Nat} (hcell : r.cell slot = .reserved) :
      Moves r (.entering id slot) (.entering id slot) r
  | reserves {id : String} {slot : Nat} (hcell : r.cell slot = .empty) :
      Moves r (.entering id slot) (.reading id slot) (r.setCell slot .reserved)
  | reads {id : String} {slot : Nat} {realm : RealmConfig}
      (hrealm : r.realms.get? id = some realm) :
      Moves r (.reading id slot) (.opening slot realm) r
  | forgets {id : String} {slot : Nat} (hrealm : r.realms.get? id = none) :
      Moves r (.reading id slot) (.returned (.error (unknown id))) (r.setCell slot .empty)
  | opens {slot : Nat} {i : Instance} {s : DataSource} (hsource : i.source = r.sources.length)
      (hi : i.IsConfiguredWith s) :
      Moves r (.opening slot i.realm) (.filling slot i) (r.addSource s)
  | fails {slot : Nat} {realm : RealmConfig} {f : Failure} :
      Moves r (.opening slot realm) (.returned (.error f)) (r.setCell slot .empty)
  | fills {slot : Nat} {i : Instance} :
      Moves r (.filling slot i) (.returned (.ok i)) (r.setCell slot (.filled i))
  | refuses {realm : RealmConfig} {f : Failure} :
      Moves r (.validating realm) (.returned (.error f)) r
  | validates {i : Instance} {s : DataSource} (hsource : i.source = r.sources.length)
      (hi : i.IsConfiguredWith s) :
      Moves r (.validating i.realm) (.storing i) (r.addSource s)
  | stores {i : Instance} :
      Moves r (.storing i) (.replacing i)
        { r with realms := r.realms.insert i.realm.id i.realm }
  | replaces {i : Instance} {old : Nat} (hslot : r.slots.get? i.realm.id = some old) :
      Moves r (.replacing i) (.retiring i old) (r.addSlot i.realm.id (.filled i))
  | installs {i : Instance} (hslot : r.slots.get? i.realm.id = none) :
      Moves r (.replacing i) (.returned (.ok i)) (r.addSlot i.realm.id (.filled i))
  | retires {i : Instance} {old : Nat} :
      Moves r (.retiring i old) (.returned (.ok i)) (r.retireSlot old)
  | drains : Moves r .draining (.releasing r.slotNumbers) { r with slots := .empty }
  | releases {slot : Nat} {slots : List Nat} :
      Moves r (.releasing (slot :: slots)) (.releasing slots) (r.retireSlot slot)
  | rests {c : Call} (hc : c.IsOver) : Moves r c c r

/-- **Every step is one of the cases.** -/
theorem Call.moves (reply : Backend → Reply) (r : Registry) (c : Call) :
    c.Moves r (c.step reply r).1 (c.step reply r).2 := by
  cases c with
  | finding id =>
      cases hslot : r.slots.get? id with
      | none => simpa only [step, hslot] using .missed hslot
      | some slot => simpa only [step, hslot] using .found hslot
  | knowing id =>
      rw [step]
      split
      · exact .known
      · exact .unknown
  | claiming id =>
      cases hslot : r.slots.get? id with
      | none => simpa only [step, hslot] using .claimed hslot
      | some slot => simpa only [step, hslot] using .joined hslot
  | entering id slot =>
      cases hcell : r.cell slot with
      | empty => simpa only [step, hcell] using .reserves hcell
      | reserved => simpa only [step, hcell] using .waits hcell
      | filled i => simpa only [step, hcell] using .met hcell
  | reading id slot =>
      cases hrealm : r.realms.get? id with
      | none => simpa only [step, hrealm] using .forgets hrealm
      | some realm => simpa only [step, hrealm] using .reads hrealm
  | opening slot realm =>
      rcases openInstance_cases reply realm r with ⟨f, hopen⟩ | ⟨i, s, hopen, rfl, hsource, hi⟩
      · simpa only [step, hopen] using .fails
      · simpa only [step, hopen] using .opens hsource hi
  | filling slot i => exact .fills
  | validating realm =>
      cases hcheck : realm.check with
      | error f => simpa only [step, hcheck] using .refuses
      | ok =>
          rcases openInstance_cases reply realm r with
            ⟨f, hopen⟩ | ⟨i, s, hopen, rfl, hsource, hi⟩
          · simpa only [step, hcheck, hopen] using .refuses
          · simpa only [step, hcheck, hopen] using .validates hsource hi
  | storing i => exact .stores
  | replacing i =>
      cases hslot : r.slots.get? i.realm.id with
      | none => simpa only [step, hslot] using .installs hslot
      | some old => simpa only [step, hslot] using .replaces hslot
  | retiring i old => exact .retires
  | returned result => exact .rests (.returned result)
  | draining => exact .drains
  | releasing slots =>
      cases slots with
      | nil => exact .rests .released
      | cons slot slots => exact .releases

/-- **A trace that can come about**: calls start, and take steps, in any order. -/
inductive Trace.Reached (realms : List RealmConfig) : Trace → Prop
  | initial : Reached realms (.ofRealms realms)
  | starts {r : Registry} {calls steps : List Call} {c : Call}
      (h : Reached realms ⟨⟨r, calls⟩, steps⟩) (hc : c.IsStart) :
      Reached realms ⟨⟨r, calls ++ [c]⟩, steps⟩
  | moves {r r' : Registry} {calls steps : List Call} {n : Nat} {c c' : Call}
      (h : Reached realms ⟨⟨r, calls⟩, steps⟩) (hn : calls[n]? = some c)
      (hmoves : c.Moves r c' r') :
      Reached realms ⟨⟨r', calls.set n c'⟩, steps ++ [c]⟩

theorem Trace.Reached.next {realms : List RealmConfig} {t : Trace} (h : t.Reached realms)
    (e : Event) : (t.next e).Reached realms := by
  obtain ⟨⟨r, calls⟩, steps⟩ := t
  cases e with
  | gets id => simpa [Trace.next, Run.next, Run.moving] using h.starts (.gets id)
  | reconfigures realm =>
      simpa [Trace.next, Run.next, Run.moving] using h.starts (.reconfigures realm)
  | closes => simpa [Trace.next, Run.next, Run.moving] using h.starts .closes
  | steps n reply =>
      cases hn : calls[n]? with
      | none => simpa [Trace.next, Run.next, Run.moving, hn] using h
      | some c =>
          simpa [Trace.next, Run.next, Run.moving, hn] using h.moves hn (c.moves reply r)

theorem Trace.Reached.foldl_next {realms : List RealmConfig} {t : Trace} (h : t.Reached realms)
    (events : List Event) : (events.foldl Trace.next t).Reached realms := by
  induction events generalizing t with
  | nil => exact h
  | cons e events ih => exact ih (h.next e)

/-- **Every list of events leads to such a trace.** -/
theorem Trace.reached (realms : List RealmConfig) (events : List Event) :
    (Trace.of realms events).Reached realms :=
  Trace.Reached.initial.foldl_next events

/-! ### The cells that a call has to do with -/

/-- The cell that a call has reserved. -/
def Call.reserved : Call → List Nat
  | reading _ slot | opening slot _ | filling slot _ => [slot]
  | _ => []

/-- The slots that a call has taken away, and has not looked into yet. -/
def Call.taken : Call → List Nat
  | retiring _ old => [old]
  | releasing slots => slots
  | _ => []

/-- The slot that a call looks into in its next step, to close what is in it. -/
def Call.looks : Call → List Nat
  | retiring _ old => [old]
  | releasing (slot :: _) => [slot]
  | _ => []

/-- The cell that a call is about to reserve or has just reserved, with the realm for which it
does. -/
def Call.entered : Call → List (String × Nat)
  | entering id slot | reading id slot => [(id, slot)]
  | _ => []

theorem Call.IsStart.reserved (h : c.IsStart) : c.reserved = [] := by cases h <;> rfl

theorem Call.IsStart.taken (h : c.IsStart) : c.taken = [] := by cases h <;> rfl

theorem Call.mem_taken_of_mem_looks (h : slot ∈ c.looks) : slot ∈ c.taken := by
  cases c with
  | retiring i old => exact h
  | releasing slots =>
      cases slots with
      | nil => exact h
      | cons first slots =>
          obtain rfl := List.mem_singleton.mp h
          exact List.mem_cons_self
  | _ => exact h

/-! ### What a step leaves alone -/

theorem slots_retireSlot (r : Registry) (slot : Nat) : (r.retireSlot slot).slots = r.slots := by
  rw [retireSlot_eq]
  cases (r.cell slot).instance? <;> rfl

theorem cells_retireSlot (r : Registry) (slot : Nat) : (r.retireSlot slot).cells = r.cells := by
  rw [retireSlot_eq]
  cases (r.cell slot).instance? <;> rfl

theorem realms_retireSlot (r : Registry) (slot : Nat) :
    (r.retireSlot slot).realms = r.realms := by
  rw [retireSlot_eq, realms_retireInstance]

theorem length_sources_retireSlot (r : Registry) (slot : Nat) :
    (r.retireSlot slot).sources.length = r.sources.length := by
  rw [retireSlot_eq, length_sources_retireInstance]

theorem length_cells_setCell (r : Registry) (slot : Nat) (cell : Cell) :
    (r.setCell slot cell).cells.length = r.cells.length := List.length_set

theorem length_cells_addSlot (r : Registry) (id : String) (cell : Cell) :
    (r.addSlot id cell).cells.length = r.cells.length + 1 := List.length_append

/-- The next cell is in the new slot, which takes the place of the one that the realm had. -/
theorem count_slotNumbers_addSlot (r : Registry) (id : String) (cell : Cell) (m : Nat) :
    (r.addSlot id cell).slotNumbers.count m + (r.slots.get? id).toList.count m +
        (List.range r.cells.length).count m =
      r.slotNumbers.count m + (List.range (r.addSlot id cell).cells.length).count m := by
  have hcount := KeyedList.count_insert r.slots id r.cells.length m
  rw [length_cells_addSlot, count_range_succ, slotNumbers, slotNumbers, addSlot, hcount]
  omega

/-! ### Where the cells are -/

/-- **A step moves a cell from one place to the next**: from the slot of a realm to the call
that takes it away, and to those that were looked into. -/
theorem Call.Moves.places (h : c.Moves r c' r') (m : Nat) :
    r'.slotNumbers.count m + c'.taken.count m + c.looks.count m +
        (List.range r.cells.length).count m =
      r.slotNumbers.count m + c.taken.count m + (List.range r'.cells.length).count m := by
  cases h with
  | @claimed id hslot =>
      have hcount := count_slotNumbers_addSlot r id .empty m
      rw [hslot, Option.toList_none, List.count_nil] at hcount
      simp only [taken, looks, List.count_nil]
      omega
  | @replaces i old hslot =>
      have hcount := count_slotNumbers_addSlot r i.realm.id (.filled i) m
      rw [hslot, Option.toList_some] at hcount
      simp only [taken, looks, List.count_nil]
      omega
  | @installs i hslot =>
      have hcount := count_slotNumbers_addSlot r i.realm.id (.filled i) m
      rw [hslot, Option.toList_none, List.count_nil] at hcount
      simp only [taken, looks, List.count_nil]
      omega
  | reserves | forgets | fails | fills =>
      rw [length_cells_setCell]
      rfl
  | retires =>
      simp only [cells_retireSlot, slotNumbers, slots_retireSlot, taken, looks, List.count_nil]
      omega
  | releases =>
      simp only [cells_retireSlot, slotNumbers, slots_retireSlot, taken, looks, List.count_cons,
        List.count_nil]
      omega
  | drains =>
      have hempty : { r with slots := .empty }.slotNumbers.count m = 0 := rfl
      simp only [hempty, taken, looks, List.count_nil]
      omega
  | rests hc =>
      cases hc <;> rfl
  | _ => rfl

theorem cell_of_length_le (h : r.cells.length ≤ slot) : r.cell slot = .empty := by
  rw [cell, List.getD_eq_getElem?_getD, List.getElem?_eq_none h, Option.getD_none]

theorem lt_length_of_cell_ne_empty (h : r.cell slot ≠ .empty) : slot < r.cells.length :=
  Nat.lt_of_not_le fun hle => h (cell_of_length_le hle)

theorem reservations_setCell (h : slot < r.cells.length) (cell : Cell) (m : Nat) :
    ((r.setCell slot cell).cell m).reservations + [slot].count m * (r.cell slot).reservations =
      (r.cell m).reservations + [slot].count m * cell.reservations := by
  rw [cell_setCell h, List.count_singleton]
  by_cases hm : m = slot
  · subst hm
    simp only [if_true, BEq.rfl]
    omega
  · have hm' : (slot == m) = false := beq_false_of_ne (Ne.symm hm)
    simp only [hm, hm', if_false, Nat.zero_mul, Bool.false_eq_true]

theorem reservations_addSlot (r : Registry) (id : String) {cell : Cell}
    (hcell : cell.reservations = 0) (m : Nat) :
    ((r.addSlot id cell).cell m).reservations = (r.cell m).reservations := by
  rw [cell_addSlot]
  split
  · next heq => rw [heq, cell_of_length_le (Nat.le_refl _), hcell, Cell.reservations_empty]
  · rfl

/-- **A cell is reserved by the step that reserves it**, and given free by the step with which
that call fills it or gives it up. -/
theorem Call.Moves.reservations (h : c.Moves r c' r')
    (hentered : ∀ e ∈ c.entered, e.2 < r.cells.length)
    (hreserved : ∀ slot ∈ c.reserved, r.cell slot = .reserved) (m : Nat) :
    c'.reserved.count m + (r.cell m).reservations =
      c.reserved.count m + (r'.cell m).reservations := by
  have hfree {slot : Nat} (hslot : slot ∈ c.reserved) (cell : Cell)
      (hcell : cell.reservations = 0) :
      (r.cell m).reservations =
        [slot].count m + ((r.setCell slot cell).cell m).reservations := by
    have hfull := hreserved slot hslot
    have hne : r.cell slot ≠ .empty := fun hempty => Cell.noConfusion (hfull.symm.trans hempty)
    have hcount := reservations_setCell (lt_length_of_cell_ne_empty hne) cell m
    rw [hfull, hcell, Cell.reservations_reserved, Nat.mul_one, Nat.mul_zero] at hcount
    omega
  cases h with
  | @reserves id slot hcell =>
      have hlt : slot < r.cells.length := hentered _ (List.mem_singleton_self _)
      have hcount := reservations_setCell hlt .reserved m
      rw [hcell, Cell.reservations_reserved, Cell.reservations_empty, Nat.mul_one,
        Nat.mul_zero] at hcount
      simp only [reserved, List.count_nil]
      omega
  | forgets | fails =>
      have hcount := hfree (List.mem_singleton_self _) .empty rfl
      simp only [reserved, List.count_nil]
      omega
  | @fills slot i =>
      have hcount := hfree (List.mem_singleton_self _) (.filled i) rfl
      simp only [reserved, List.count_nil]
      omega
  | claimed | replaces | installs =>
      rw [reservations_addSlot _ _ rfl]
      rfl
  | retires | releases =>
      simp only [cell, cells_retireSlot]
      rfl
  | _ => rfl

/-- **What a step does to the slots**: a realm has the slot that it had, or a new one with the
next cell. A call that puts an instance in place makes the new slot of that realm. -/
theorem Call.Moves.slots_cases (h : c.Moves r c' r') (hslot : r'.slots.get? id = some slot) :
    (r.slots.get? id = some slot ∧ ∀ i, c = .replacing i → i.realm.id ≠ id) ∨
      (slot = r.cells.length ∧ ∀ i, c = .replacing i → i.realm.id = id) := by
  have hadd {id₁ : String} {cell : Cell}
      (hslot : (r.addSlot id₁ cell).slots.get? id = some slot) :
      id₁ ≠ id ∧ r.slots.get? id = some slot ∨ id₁ = id ∧ slot = r.cells.length := by
    rw [get?_addSlot] at hslot
    split at hslot
    · next heq => exact Or.inr ⟨heq.symm, (Option.some.inj hslot).symm⟩
    · next hne => exact Or.inl ⟨Ne.symm hne, hslot⟩
  cases h with
  | claimed =>
      exact (hadd hslot).imp (fun h => ⟨h.2, fun _ hc => Call.noConfusion hc⟩)
        fun h => ⟨h.2, fun _ hc => Call.noConfusion hc⟩
  | @replaces i | @installs i =>
      have hsame {j : Instance} (hj : Call.replacing i = .replacing j) : i = j :=
        Call.replacing.inj hj
      exact (hadd hslot).imp (fun h => ⟨h.2, fun _ hj => hsame hj ▸ h.1⟩)
        fun h => ⟨h.2, fun _ hj => hsame hj ▸ h.1⟩
  | retires | releases =>
      rw [slots_retireSlot] at hslot
      exact Or.inl ⟨hslot, fun _ hc => Call.noConfusion hc⟩
  | drains => cases hslot
  | rests hc =>
      refine Or.inl ⟨hslot, ?_⟩
      rintro i rfl
      cases hc
  | _ => exact Or.inl ⟨hslot, fun _ hc => Call.noConfusion hc⟩

theorem Call.Moves.length_cells_le (h : c.Moves r c' r') : r.cells.length ≤ r'.cells.length := by
  cases h with
  | claimed | replaces | installs =>
      rw [length_cells_addSlot]
      exact Nat.le_succ _
  | reserves | forgets | fails | fills =>
      exact Nat.le_of_eq (length_cells_setCell _ _ _).symm
  | retires | releases => exact Nat.le_of_eq (congrArg _ (cells_retireSlot _ _).symm)
  | _ => exact Nat.le_refl _

/-- **A call goes into the cell of the slot that it found or made**, and stays with it. -/
theorem Call.Moves.entered_cases (h : c.Moves r c' r') {e : String × Nat} (he : e ∈ c'.entered) :
    e ∈ c.entered ∨ r.slots.get? e.1 = some e.2 ∨
      e.2 = r.cells.length ∧ r'.cells.length = r.cells.length + 1 ∧
        ∀ id, r'.slots.get? id = some e.2 → id = e.1 ∨ r.slots.get? id = some e.2 := by
  cases h with
  | found hslot | joined hslot =>
      obtain rfl := List.mem_singleton.mp he
      exact Or.inr (Or.inl hslot)
  | claimed hslot =>
      obtain rfl := List.mem_singleton.mp he
      refine Or.inr (Or.inr ⟨rfl, length_cells_addSlot _ _ _, fun id hid => ?_⟩)
      rw [get?_addSlot] at hid
      split at hid
      · next heq => exact Or.inl heq
      · exact Or.inr hid
  | waits | reserves | rests => exact Or.inl he
  | _ => cases he

/-- **The cells are accounted for.** Every cell is in one place: in the slot of a realm, or in
a slot that a call has taken away, or looked into by such a call. Every reserved cell is
reserved by one call. And a call goes into a cell that belongs to its own realm or to none. -/
structure Trace.IsOrderly (t : Trace) : Prop where
  places : ∀ m, t.run.registry.slotNumbers.count m + (t.run.calls.flatMap Call.taken).count m +
    (t.steps.flatMap Call.looks).count m = (List.range t.run.registry.cells.length).count m
  reservations : ∀ m,
    (t.run.calls.flatMap Call.reserved).count m = (t.run.registry.cell m).reservations
  entered : ∀ c ∈ t.run.calls, ∀ e ∈ c.entered, e.2 < t.run.registry.cells.length ∧
    ∀ id, t.run.registry.slots.get? id = some e.2 → id = e.1

section

variable (h : Trace.IsOrderly ⟨⟨r, calls⟩, steps⟩)
include h

theorem Trace.IsOrderly.count_eq (m : Nat) :
    r.slotNumbers.count m + (calls.flatMap Call.taken).count m +
      (steps.flatMap Call.looks).count m = (List.range r.cells.length).count m := h.places m

theorem Trace.IsOrderly.slot_lt (hslot : r.slots.get? id = some slot) :
    slot < r.cells.length := by
  have hmem : slot ∈ r.slotNumbers :=
    List.mem_map_of_mem (KeyedList.get?_eq_some_iff.mp hslot)
  have hpos := List.count_pos_iff.mpr hmem
  have hplaces := h.count_eq slot
  exact count_range_pos_iff.mp (by omega)

theorem Trace.IsOrderly.slot_injective {id' : String} (hslot : r.slots.get? id = some slot)
    (hslot' : r.slots.get? id' = some slot) : id = id' := by
  have hnodup : r.slotNumbers.Nodup := by
    refine List.nodup_iff_count_le_one.mpr fun m => ?_
    have hplaces := h.count_eq m
    have hone := count_range_le_one m r.cells.length
    omega
  exact congrArg Prod.fst (List.inj_on_of_nodup_map hnodup
    (KeyedList.get?_eq_some_iff.mp hslot) (KeyedList.get?_eq_some_iff.mp hslot') rfl)

/-- The cell that a call has reserved is reserved. -/
theorem Trace.IsOrderly.cell_of_mem_reserved (hc : c ∈ calls) (hslot : slot ∈ c.reserved) :
    r.cell slot = .reserved := by
  have hpos := List.count_pos_iff.mpr hslot
  have hle := count_le_count_flatMap Call.reserved hc slot
  have hcount := h.reservations slot
  cases hcell : r.cell slot with
  | reserved => rfl
  | _ =>
      rw [hcell] at hcount
      simp only [Cell.reservations_empty, Cell.reservations_filled] at hcount
      omega

/-- The places of a cell. -/
theorem Trace.IsOrderly.place_cases (hlt : slot < r.cells.length) :
    (∃ id, r.slots.get? id = some slot) ∨ (∃ c ∈ calls, slot ∈ c.taken) ∨
      slot ∈ steps.flatMap Call.looks := by
  have hplaces := h.count_eq slot
  have hsome := count_range_pos_iff.mpr hlt
  have hpos : 0 < r.slotNumbers.count slot ∨ 0 < (calls.flatMap Call.taken).count slot ∨
      0 < (steps.flatMap Call.looks).count slot := by
    omega
  simp only [List.count_pos_iff] at hpos
  refine hpos.imp (fun hmem => ?_) (Or.imp_left List.mem_flatMap.mp)
  obtain ⟨e, he, rfl⟩ := List.mem_map.mp hmem
  exact ⟨e.1, KeyedList.get?_eq_some_iff.mpr he⟩

/-- A cell that was looked into has no slot, and no call is about to look into it. -/
theorem Trace.IsOrderly.notMem_of_looked (hlooked : slot ∈ steps.flatMap Call.looks) :
    slot < r.cells.length ∧ slot ∉ r.slotNumbers ∧ slot ∉ calls.flatMap Call.taken := by
  have hpos := List.count_pos_iff.mpr hlooked
  have hplaces := h.count_eq slot
  have hone := count_range_le_one slot r.cells.length
  exact ⟨count_range_pos_iff.mp (by omega), List.count_eq_zero.mp (by omega),
    List.count_eq_zero.mp (by omega)⟩

theorem Trace.IsOrderly.starts (hc : c.IsStart) :
    Trace.IsOrderly ⟨⟨r, calls ++ [c]⟩, steps⟩ where
  places m := by
    rw [← h.places m]
    simp only [count_flatMap_concat, hc.taken, List.count_nil, Nat.add_zero]
  reservations m := by
    rw [← h.reservations m]
    simp only [count_flatMap_concat, hc.reserved, List.count_nil, Nat.add_zero]
  entered d hd := by
    rcases List.mem_append.mp hd with hold | hnew
    · exact h.entered d hold
    · obtain rfl := List.mem_singleton.mp hnew
      cases hc <;> exact nofun

theorem Trace.IsOrderly.moves (hn : calls[n]? = some c) (hmoves : c.Moves r c' r') :
    Trace.IsOrderly ⟨⟨r', calls.set n c'⟩, steps ++ [c]⟩ where
  places m := by
    have hstep := hmoves.places m
    have hcalls := count_flatMap_set Call.taken hn c' m
    have hsteps := count_flatMap_concat Call.looks steps c m
    have hplaces := h.count_eq m
    simp only
    omega
  reservations m := by
    have hmem : c ∈ calls := List.mem_of_getElem? hn
    have hstep := hmoves.reservations (fun e he => (h.entered c hmem e he).1)
      (fun slot => h.cell_of_mem_reserved hmem) m
    have hcalls := count_flatMap_set Call.reserved hn c' m
    have := h.reservations m
    simp only at this ⊢
    omega
  entered d hd e he := by
    have hle := hmoves.length_cells_le
    -- What held of a cell with a slot that is not new still holds.
    have hkept (hlt : e.2 < r.cells.length) (hid : ∀ id, r.slots.get? id = some e.2 → id = e.1) :
        e.2 < r'.cells.length ∧ ∀ id, r'.slots.get? id = some e.2 → id = e.1 := by
      refine ⟨Nat.lt_of_lt_of_le hlt hle, fun id hslot => ?_⟩
      rcases hmoves.slots_cases hslot with ⟨hold, -⟩ | ⟨hnew, -⟩
      · exact hid id hold
      · omega
    rcases List.mem_or_eq_of_mem_set hd with hold | rfl
    · obtain ⟨hlt, hid⟩ := h.entered d hold e he
      exact hkept hlt hid
    · rcases hmoves.entered_cases he with hsame | hslot | ⟨hnew, hlength, hid⟩
      · obtain ⟨hlt, hid⟩ := h.entered c (List.mem_of_getElem? hn) e hsame
        exact hkept hlt hid
      · exact hkept (h.slot_lt hslot) fun id hid => h.slot_injective hid hslot
      · have hlt : e.2 < r'.cells.length := by omega
        refine ⟨hlt, fun id hslot => (hid id hslot).resolve_right fun hold => ?_⟩
        have := h.slot_lt hold
        omega

end

/-- **The cells are accounted for in every order of steps.** -/
theorem Trace.Reached.isOrderly {realms : List RealmConfig} {t : Trace} (h : t.Reached realms) :
    t.IsOrderly := by
  induction h with
  | initial => exact ⟨fun m => rfl, fun m => rfl, fun c hc => absurd hc List.not_mem_nil⟩
  | starts h hc ih => exact ih.starts hc
  | moves h hn hmoves ih => exact ih.moves hn hmoves

/-! ### What is in the cells -/

theorem cell_setCell_eq_filled_iff (h : slot < r.cells.length) (hfree : r.cell slot ≠ .filled i)
    (cell : Cell) (m : Nat) :
    (r.setCell slot cell).cell m = .filled i ↔
      r.cell m = .filled i ∨ m = slot ∧ cell = .filled i := by
  rw [cell_setCell h]
  split
  · next heq => rw [heq, or_iff_right hfree, and_iff_right rfl]
  · next hne => rw [or_iff_left fun h => hne h.1]

theorem cell_addSlot_eq_filled_iff (r : Registry) (id : String) (cell : Cell) (m : Nat) :
    (r.addSlot id cell).cell m = .filled i ↔
      r.cell m = .filled i ∨ m = r.cells.length ∧ cell = .filled i := by
  have hfree : r.cell r.cells.length ≠ .filled i := by
    rw [cell_of_length_le (Nat.le_refl _)]
    exact Cell.noConfusion
  rw [cell_addSlot]
  split
  · next heq => rw [heq, or_iff_right hfree, and_iff_right rfl]
  · next hne => rw [or_iff_left fun h => hne h.1]

/-- **What a step does to what is in the cells**: a call fills the cell that it has reserved,
or puts a new cell with its instance in place. What is in a cell stays there. -/
theorem Trace.IsOrderly.filled_iff (h : Trace.IsOrderly ⟨⟨r, calls⟩, steps⟩) (hc : c ∈ calls)
    (hmoves : c.Moves r c' r') (m : Nat) :
    r'.cell m = .filled i ↔
      r.cell m = .filled i ∨ c = .filling m i ∨ c = .replacing i ∧ m = r.cells.length := by
  have hreserved {slot : Nat} (hslot : slot ∈ c.reserved) (cell : Cell) :
      (r.setCell slot cell).cell m = .filled i ↔
        r.cell m = .filled i ∨ m = slot ∧ cell = .filled i := by
    have hcell := h.cell_of_mem_reserved hc hslot
    refine cell_setCell_eq_filled_iff (lt_length_of_cell_ne_empty ?_) ?_ cell m <;>
    · rw [hcell]
      exact Cell.noConfusion
  cases hmoves with
  | claimed => simp [cell_addSlot_eq_filled_iff]
  | @reserves id slot hcell =>
      have hlt : slot < r.cells.length := (h.entered _ hc _ (List.mem_singleton_self _)).1
      have hfree : r.cell slot ≠ .filled i := by
        rw [hcell]
        exact Cell.noConfusion
      simp [cell_setCell_eq_filled_iff hlt hfree]
  | forgets | fails => simp [hreserved (List.mem_singleton_self _)]
  | fills => simp [hreserved (List.mem_singleton_self _), eq_comm]
  | replaces | installs => simp [cell_addSlot_eq_filled_iff, and_comm]
  | retires | releases => simp [cell, cells_retireSlot]
  | stores | drains | opens | validates => simp [cell, addSource]
  | rests hover => cases hover <;> simp
  | _ => simp

end Registry

end RealmDirectory
