import RealmDirectory.Proofs.Directory.Interleaving

/-!
# New configurations that cross

A call with a new configuration writes twice: it stores the configuration, and then it puts
its instance in place. Between the two writes the realm still runs what it ran before. When
two calls configure one realm and overlap, their writes can cross: the call that stored its
configuration first puts its instance in place last. Then the realm runs one configuration
while another one is stored, and it stays so when both calls are over.

This is the only way: in every order of steps, a realm that runs anything else than what is
stored for it waits for a call between its two writes, or two such calls have crossed.

## Main definitions

* `Registry.Run.Awaits`: a call has stored a configuration and not put it in place yet.
* `Registry.Trace.Overtook`: one configuration was stored behind another.
* `Registry.Trace.IsCurrent`: what runs, and what is about to run.

## Main results

* `Trace.IsCurrent.moves`: every step keeps what is known about what runs.
* `Trace.Reached.isCurrent`: it holds in every order of steps.
* `running_stored_or_crossed`: when no call is on its way, a realm runs what is stored for it
  unless two calls have crossed.
-/

namespace RealmDirectory.Registry

variable {r r' : Registry} {c c' : Call} {calls steps : List Call} {id : String}
  {i j : Instance} {slot n : Nat}

/-! ### What runs, and what is stored -/

/-- **Only the step that stores a configuration changes what is stored.** -/
theorem Call.Moves.stored_cases (h : c.Moves r c' r') (id : String) :
    (r'.realms.get? id = r.realms.get? id ∧ ∀ i, c = .storing i → i.realm.id ≠ id) ∨
      ∃ i, c = .storing i ∧ c' = .replacing i ∧ i.realm.id = id ∧
        r'.realms.get? id = some i.realm := by
  cases h with
  | @stores i =>
      have hget := KeyedList.get?_insert r.realms i.realm.id id i.realm
      split at hget
      · next heq => exact Or.inr ⟨i, rfl, rfl, heq.symm, hget⟩
      · next hne =>
          refine Or.inl ⟨hget, ?_⟩
          rintro j hj
          obtain rfl := Call.storing.inj hj
          exact Ne.symm hne
  | retires | releases =>
      exact Or.inl ⟨congrArg (·.get? id) (realms_retireSlot _ _), fun _ hc => Call.noConfusion hc⟩
  | rests hc =>
      refine Or.inl ⟨rfl, ?_⟩
      rintro i rfl
      cases hc
  | _ => exact Or.inl ⟨rfl, fun _ hc => Call.noConfusion hc⟩

/-- **What runs behind a step** ran before, or a call has filled it in, or has put it in
place. -/
theorem Trace.IsOrderly.running_cases (h : Trace.IsOrderly ⟨⟨r, calls⟩, steps⟩)
    (hc : c ∈ calls) (hmoves : c.Moves r c' r') (hi : r'.running id = some i) :
    (r.running id = some i ∧ ∀ j, c = .replacing j → j.realm.id ≠ id) ∨
      (∃ slot, c = .filling slot i ∧ r.slots.get? id = some slot) ∨
        c = .replacing i ∧ i.realm.id = id := by
  obtain ⟨slot, hslot, hfilled⟩ := running_eq_some_iff.mp hi
  rcases hmoves.slots_cases hslot with ⟨hold, hne⟩ | ⟨rfl, heq⟩
  · rcases (h.filled_iff hc hmoves slot).mp hfilled with hcell | rfl | ⟨-, rfl⟩
    · exact Or.inl ⟨running_eq_some_iff.mpr ⟨slot, hold, hcell⟩, hne⟩
    · exact Or.inr (Or.inl ⟨slot, rfl, hold⟩)
    · exact absurd (h.slot_lt hold) (Nat.lt_irrefl _)
  · have hempty : r.cell r.cells.length = .empty := cell_of_length_le (Nat.le_refl _)
    rcases (h.filled_iff hc hmoves _).mp hfilled with hcell | rfl | ⟨rfl, -⟩
    · rw [hempty] at hcell
      cases hcell
    · have hreserved := h.cell_of_mem_reserved hc (List.mem_singleton_self _)
      rw [hempty] at hreserved
      cases hreserved
    · exact Or.inr (Or.inr ⟨rfl, heq i rfl⟩)

/-! ### Between the two writes -/

/-- The slot that a call fills, and the configuration that it has looked up for it. -/
def Call.carries : Call → List (Nat × RealmConfig)
  | opening slot realm => [(slot, realm)]
  | filling slot i => [(slot, i.realm)]
  | _ => []

/-- A call has stored the configuration of a realm, and puts its instance in place next. -/
def Run.Awaits (run : Run) (id : String) : Prop :=
  ∃ j, .replacing j ∈ run.calls ∧ j.realm.id = id ∧
    run.registry.realms.get? id = some j.realm

/-- The stored configuration is that of `j`, which was stored behind that of `i`, and then
other steps were taken. -/
structure Trace.Overtook (t : Trace) (i j : Instance) (later : List Call) : Prop where
  id_eq : j.realm.id = i.realm.id
  stored : t.run.registry.realms.get? i.realm.id = some j.realm
  steps : (.storing i :: .storing j :: later).Sublist t.steps

/-- **What runs, and what is about to run.** A realm runs what is stored for it, or waits for
a call between its two writes, or was overtaken by one that has put its own instance in place
before. A call between its two writes has the stored configuration, or was overtaken. And a
call fills the slot of a realm with the stored configuration, unless the realm waits for
another one. -/
structure Trace.IsCurrent (t : Trace) : Prop where
  running : ∀ {id i}, t.run.registry.running id = some i →
    t.run.registry.realms.get? id = some i.realm ∨ t.run.Awaits id ∨
      ∃ j, i.realm.id = id ∧ t.Overtook i j [.replacing j, .replacing i]
  replacing : ∀ {i}, .replacing i ∈ t.run.calls → .storing i ∈ t.steps ∧
    (t.run.registry.realms.get? i.realm.id = some i.realm ∨
      (∃ j, .replacing j ∈ t.run.calls ∧ t.Overtook i j []) ∨
        ∃ j, t.Overtook i j [.replacing j])
  carries : ∀ {c}, c ∈ t.run.calls → ∀ p ∈ c.carries, ∀ id,
    t.run.registry.slots.get? id = some p.1 →
      t.run.registry.realms.get? id = some p.2 ∨ t.run.Awaits id

/-- What was overtaken stays so while nothing else is stored for the realm. -/
theorem Trace.Overtook.keep {later : List Call}
    (h : Trace.Overtook ⟨⟨r, calls⟩, steps⟩ i j later)
    (hstored : r'.realms.get? i.realm.id = r.realms.get? i.realm.id) (calls' : List Call)
    (c : Call) : Trace.Overtook ⟨⟨r', calls'⟩, steps ++ [c]⟩ i j later :=
  ⟨h.id_eq, hstored.trans h.stored, h.steps.trans (List.sublist_append_left _ _)⟩

/-- One of the other steps is the last one. -/
theorem Trace.Overtook.concat {later : List Call}
    (h : Trace.Overtook ⟨⟨r, calls⟩, steps⟩ i j later)
    (hstored : r'.realms.get? i.realm.id = r.realms.get? i.realm.id) (calls' : List Call)
    (c : Call) : Trace.Overtook ⟨⟨r', calls'⟩, steps ++ [c]⟩ i j (later ++ [c]) :=
  ⟨h.id_eq, hstored.trans h.stored, h.steps.append (List.Sublist.refl [c])⟩

/-! ### One step -/

/-- A call that is between its two writes has just stored its configuration. -/
theorem Call.Moves.of_replacing (h : c.Moves r (.replacing i) r') :
    c = .storing i ∧ r'.realms.get? i.realm.id = some i.realm := by
  cases h with
  | stores => exact ⟨rfl, (KeyedList.get?_insert _ _ _ _).trans (if_pos rfl)⟩
  | rests hc => cases hc

/-- A call carries the configuration that it has just read. -/
theorem Call.Moves.carries_cases (h : c.Moves r c' r') {p : Nat × RealmConfig}
    (hp : p ∈ c'.carries) :
    p ∈ c.carries ∨ ∃ id, c = .reading id p.1 ∧ r.realms.get? id = some p.2 := by
  cases h with
  | reads hrealm =>
      obtain rfl := List.mem_singleton.mp hp
      exact Or.inr ⟨_, rfl, hrealm⟩
  | opens | rests => exact Or.inl hp
  | _ => cases hp

theorem Call.mem_reserved_of_mem_carries {p : Nat × RealmConfig} (hp : p ∈ c.carries) :
    p.1 ∈ c.reserved := by
  cases c with
  | opening | filling =>
      obtain rfl := List.mem_singleton.mp hp
      exact List.mem_singleton_self _
  | _ => cases hp

section

variable (hn : calls[n]? = some c) (hmoves : c.Moves r c' r')
include hn hmoves

/-- **What is stored for a realm stays, or the realm waits**, until a call puts its instance in
place. -/
theorem stored_or_awaits_moves {realm : RealmConfig}
    (h : r.realms.get? id = some realm ∨ Run.Awaits ⟨r, calls⟩ id)
    (hne : ∀ j, c = .replacing j → j.realm.id ≠ id) :
    r'.realms.get? id = some realm ∨ Run.Awaits ⟨r', calls.set n c'⟩ id := by
  rcases hmoves.stored_cases id with ⟨hstored, -⟩ | ⟨k, rfl, rfl, hk, hstored⟩
  · refine h.imp hstored.trans ?_
    rintro ⟨j, hj, hid, hget⟩
    refine ⟨j, mem_set_of_ne hj hn ?_, hid, hstored.trans hget⟩
    rintro rfl
    exact hne j rfl hid
  · exact Or.inr ⟨k, mem_set_self hn _, hk, hstored⟩

variable (hcur : Trace.IsCurrent ⟨⟨r, calls⟩, steps⟩)
include hcur

theorem Trace.IsCurrent.replacing_moves (hi : .replacing i ∈ calls.set n c') :
    .storing i ∈ steps ++ [c] ∧ (r'.realms.get? i.realm.id = some i.realm ∨
      (∃ j, .replacing j ∈ calls.set n c' ∧
        Trace.Overtook ⟨⟨r', calls.set n c'⟩, steps ++ [c]⟩ i j []) ∨
          ∃ j, Trace.Overtook ⟨⟨r', calls.set n c'⟩, steps ++ [c]⟩ i j [.replacing j]) := by
  rcases List.mem_or_eq_of_mem_set hi with hold | rfl
  · obtain ⟨hstep, hcase⟩ := hcur.replacing hold
    refine ⟨List.mem_append_left _ hstep, ?_⟩
    rcases hmoves.stored_cases i.realm.id with ⟨hstored, -⟩ | ⟨k, rfl, rfl, hk, hstored⟩
    · rcases hcase with hs | ⟨j, hj, hover⟩ | ⟨j, hover⟩
      · exact Or.inl (hstored.trans hs)
      · by_cases hcj : c = .replacing j
        · subst hcj
          exact Or.inr (Or.inr ⟨j, hover.concat hstored _ _⟩)
        · have hmem : Call.replacing j ∈ calls.set n c' := mem_set_of_ne hj hn (Ne.symm hcj)
          exact Or.inr (Or.inl ⟨j, hmem, hover.keep hstored _ _⟩)
      · exact Or.inr (Or.inr ⟨j, hover.keep hstored _ _⟩)
    · -- The call of `k` stores its configuration behind that of `i`.
      have hsteps := (List.singleton_sublist.mpr hstep).append (List.Sublist.refl [.storing k])
      exact Or.inr (Or.inl ⟨k, mem_set_self hn _, hk, hstored, hsteps⟩)
  · obtain ⟨rfl, hstored⟩ := hmoves.of_replacing
    exact ⟨List.mem_append_right _ (List.mem_singleton_self _), Or.inl hstored⟩

variable (h : Trace.IsOrderly ⟨⟨r, calls⟩, steps⟩)
include h

theorem Trace.IsCurrent.running_moves (hi : r'.running id = some i) :
    r'.realms.get? id = some i.realm ∨ Run.Awaits ⟨r', calls.set n c'⟩ id ∨
      ∃ j, i.realm.id = id ∧
        Trace.Overtook ⟨⟨r', calls.set n c'⟩, steps ++ [c]⟩ i j [.replacing j, .replacing i] := by
  have hc : c ∈ calls := List.mem_of_getElem? hn
  rcases hmoves.stored_cases id with ⟨hstored, -⟩ | ⟨k, rfl, rfl, hk, hstored⟩
  · rcases h.running_cases hc hmoves hi with ⟨hold, hne⟩ | ⟨slot, rfl, hslot⟩ | ⟨rfl, rfl⟩
    · rw [← or_assoc]
      refine (or_assoc.mpr (hcur.running hold)).imp
        (fun hcase => stored_or_awaits_moves hn hmoves hcase hne) ?_
      rintro ⟨j, rfl, hover⟩
      exact ⟨j, rfl, hover.keep hstored _ _⟩
    · have hcase := hcur.carries hc (slot, i.realm) (List.mem_singleton_self _) id hslot
      have hne (j : Instance) (hj : Call.filling slot i = .replacing j) : j.realm.id ≠ id :=
        Call.noConfusion hj
      exact (stored_or_awaits_moves hn hmoves hcase hne).imp_right Or.inl
    · rcases (hcur.replacing hc).2 with hs | ⟨j, hj, hover⟩ | ⟨j, hover⟩
      · exact Or.inl (hstored.trans hs)
      · by_cases hji : j = i
        · subst hji
          exact Or.inl (hstored.trans hover.stored)
        · have hmem : Call.replacing j ∈ calls.set n c' :=
            mem_set_of_ne hj hn fun heq => hji (Call.replacing.inj heq)
          exact Or.inr (Or.inl ⟨j, hmem, hover.id_eq, hstored.trans hover.stored⟩)
      · exact Or.inr (Or.inr ⟨j, rfl, hover.concat hstored _ _⟩)
  · exact Or.inr (Or.inl ⟨k, mem_set_self hn _, hk, hstored⟩)

theorem Trace.IsCurrent.carries_moves {d : Call} (hd : d ∈ calls.set n c')
    {p : Nat × RealmConfig} (hp : p ∈ d.carries) (hslot : r'.slots.get? id = some p.1) :
    r'.realms.get? id = some p.2 ∨ Run.Awaits ⟨r', calls.set n c'⟩ id := by
  have hc : c ∈ calls := List.mem_of_getElem? hn
  -- The slot that a call fills is not a new one.
  have hslot_of (hlt : p.1 < r.cells.length) :
      r.slots.get? id = some p.1 ∧ ∀ j, c = .replacing j → j.realm.id ≠ id := by
    rcases hmoves.slots_cases hslot with hold | ⟨heq, -⟩
    · exact hold
    · exact absurd heq (Nat.ne_of_lt hlt)
  have hcarried {d : Call} (hd : d ∈ calls) (hp : p ∈ d.carries) :
      r'.realms.get? id = some p.2 ∨ Run.Awaits ⟨r', calls.set n c'⟩ id := by
    have hreserved := h.cell_of_mem_reserved hd (Call.mem_reserved_of_mem_carries hp)
    have hlt : p.1 < r.cells.length := lt_length_of_cell_ne_empty (by rw [hreserved]; nofun)
    obtain ⟨hold, hne⟩ := hslot_of hlt
    exact stored_or_awaits_moves hn hmoves (hcur.carries hd p hp id hold) hne
  rcases List.mem_or_eq_of_mem_set hd with hold | rfl
  · exact hcarried hold hp
  · rcases hmoves.carries_cases hp with hsame | ⟨id', rfl, hrealm⟩
    · exact hcarried hc hsame
    · obtain ⟨hlt, hid⟩ := h.entered _ hc (id', p.1) (List.mem_singleton_self _)
      obtain ⟨hold, hne⟩ := hslot_of hlt
      obtain rfl := hid id hold
      exact stored_or_awaits_moves hn hmoves (Or.inl hrealm) hne

/-- **Every step keeps what is known about what runs.** -/
theorem Trace.IsCurrent.moves : Trace.IsCurrent ⟨⟨r', calls.set n c'⟩, steps ++ [c]⟩ where
  running := running_moves hn hmoves hcur h
  replacing := replacing_moves hn hmoves hcur
  carries hd _ hp _ hslot := carries_moves hn hmoves hcur h hd hp hslot

end

/-- A call that starts changes nothing yet. -/
theorem Trace.IsCurrent.starts (h : Trace.IsCurrent ⟨⟨r, calls⟩, steps⟩) (hc : c.IsStart) :
    Trace.IsCurrent ⟨⟨r, calls ++ [c]⟩, steps⟩ := by
  have hold {j : Instance} (hj : .replacing j ∈ calls ++ [c]) : .replacing j ∈ calls := by
    refine (List.mem_append.mp hj).resolve_right fun hnew => ?_
    obtain rfl := List.mem_singleton.mp hnew
    cases hc
  have hawaits {id : String} (ha : Run.Awaits ⟨r, calls⟩ id) :
      Run.Awaits ⟨r, calls ++ [c]⟩ id := by
    obtain ⟨j, hj, hid, hget⟩ := ha
    exact ⟨j, List.mem_append_left _ hj, hid, hget⟩
  have hover {i j : Instance} {later : List Call}
      (ho : Trace.Overtook ⟨⟨r, calls⟩, steps⟩ i j later) :
      Trace.Overtook ⟨⟨r, calls ++ [c]⟩, steps⟩ i j later := ⟨ho.id_eq, ho.stored, ho.steps⟩
  refine ⟨fun {id i} hi => ?_, fun {i} hi => ?_, fun {d} hd p hp id hslot => ?_⟩
  · refine (h.running hi).imp_right (Or.imp hawaits ?_)
    rintro ⟨j, hid, ho⟩
    exact ⟨j, hid, hover ho⟩
  · obtain ⟨hstep, hcase⟩ := h.replacing (hold hi)
    refine ⟨hstep, hcase.imp_right (Or.imp ?_ ?_)⟩
    · rintro ⟨j, hj, ho⟩
      exact ⟨j, List.mem_append_left _ hj, hover ho⟩
    · rintro ⟨j, ho⟩
      exact ⟨j, hover ho⟩
  · rcases List.mem_append.mp hd with hold | hnew
    · exact (h.carries hold p hp id hslot).imp_right hawaits
    · obtain rfl := List.mem_singleton.mp hnew
      cases hc <;> cases hp

/-! ### Every order of steps -/

/-- **In every order of steps** a realm runs what is stored for it, or waits for a call between
its two writes, or was overtaken. -/
theorem Trace.Reached.isCurrent {realms : List RealmConfig} {t : Trace} (h : t.Reached realms) :
    t.IsCurrent := by
  induction h with
  | initial =>
      refine ⟨fun hi => absurd hi (running_ne_of_empty rfl), fun hi => ?_, fun hc => ?_⟩
      · exact absurd hi List.not_mem_nil
      · exact absurd hc List.not_mem_nil
  | starts h hc ih => exact ih.starts hc
  | moves h hn hmoves ih => exact ih.moves hn hmoves h.isOrderly

/-- **When no call is on its way, a realm runs what is stored for it**, in every order of steps,
unless two calls have crossed: the one that stored the configuration that runs was followed by
one that stored another configuration, and put its instance in place behind it. -/
theorem running_stored_or_crossed (realms : List RealmConfig) (events : List Event) :
    let trace := Trace.of realms events
    let r := trace.run.registry
    (∀ c ∈ trace.run.calls, c.IsOver) → ∀ id i, r.running id = some i →
      r.realms.get? id = some i.realm ∨
        ∃ j, i.realm.id = id ∧ j.realm.id = id ∧ r.realms.get? id = some j.realm ∧
          [.storing i, .storing j, .replacing j, .replacing i].Sublist trace.steps := by
  intro trace r hover id i hi
  rcases (Trace.reached realms events).isCurrent.running hi with hs | ⟨j, hj, -⟩ | ⟨j, rfl, ho⟩
  · exact Or.inl hs
  · cases hover _ hj
  · exact Or.inr ⟨j, rfl, ho.id_eq, ho.stored, ho.steps⟩

/-- Two calls configure a realm. The first one stores its configuration, the second one does
all that it has to do, and then the first one puts its instance in place. -/
theorem running_stored_or_crossed_two_calls :
    let willing : Backend → Reply := fun _ => ⟨.ok (), .ok ()⟩
    let initial : RealmConfig := { id := "default", database := Backend.inMemory }
    let first : RealmConfig := { initial with allowDelete := true }
    let second : RealmConfig := { initial with allowOverwrite := true }
    let steps (call : Nat) : Event := .steps call willing
    let events := [.reconfigures first, .reconfigures second, steps 0, steps 1, steps 0, steps 1,
      steps 1, steps 0, steps 0]
    let trace := Trace.of [initial] events
    let r := trace.run.registry
    (∀ c ∈ trace.run.calls, c.IsOver) ∧ r.realms.get? "default" = some second ∧
      ∃ i j, r.running "default" = some i ∧ i.realm = first ∧ j.realm = second ∧
        [.storing i, .storing j, .replacing j, .replacing i].Sublist trace.steps := by
  intro willing initial first second steps events trace r
  have hover : ∀ c ∈ trace.run.calls, c.IsOver := by decide +kernel
  have hstored : r.realms.get? "default" = some second := by decide +kernel
  have hrunning : (r.running "default").map Instance.realm = some first := by decide +kernel
  have hne : second ≠ first := by decide +kernel
  -- From here on the trace is any trace of which the theorem and these facts hold.
  have hcases := running_stored_or_crossed [initial] events
  have htrace : Trace.of [initial] events = trace := rfl
  rw [htrace] at hcases
  clear_value trace
  obtain ⟨i, hi, hfirst⟩ := Option.map_eq_some_iff.mp hrunning
  refine ⟨hover, hstored, i, ?_⟩
  rcases hcases hover "default" i hi with hs | ⟨j, -, -, hj, hcrossed⟩
  · have hsame : some second = some i.realm := hstored.symm.trans hs
    exact absurd (Option.some.inj (hsame.trans (congrArg some hfirst))) hne
  · exact ⟨j, hi, hfirst, Option.some.inj (hj.symm.trans hstored), hcrossed⟩

end RealmDirectory.Registry
