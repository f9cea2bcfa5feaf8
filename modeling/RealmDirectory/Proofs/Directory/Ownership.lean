import RealmDirectory.Proofs.Directory.Interleaving

/-!
# Who closes a data source

A data source that a registry has opened is closed by the call that takes its slot away: the
call looks into the cell and hands the data source of the instance there to a close. A call
that is still filling the cell is not waited for. When it fills a cell that was looked into
before, it is late: nobody looks into the cell again, and the data source stays open, also
when everything is closed afterwards.

This module follows every data source through all orders of steps. It belongs to one instance,
which is in one cell or with the call that has opened it; it is closed when its cell is looked
into; and the late ones are the only ones that are lost.

## Main definitions

* `Registry.placed`, `Registry.Call.held`: where the data sources are.
* `Registry.Run.Carries`: a call on its way has to do with a data source.
* `Registry.IsLate`, `Registry.IsLost`: a cell was filled after it was looked into.
* `Registry.Trace.IsOwned`: the data sources are accounted for.

## Main results

* `Trace.IsOrderly.held_moves`: every step moves a data source from one place to the next.
* `Trace.IsOwned.moves`, `Trace.Reached.isOwned`: the data sources are accounted for in every
  order of steps.
* `open_iff_owned_or_lost`: which data sources are open, and which stay open for good.
-/

namespace RealmDirectory

/-- A data source that was configured gives connections. -/
theorem DataSource.active_of_configure {reply : Reply} {b : Backend} {s s' : DataSource}
    (h : s.configure reply b = (.ok (), s')) : s'.active ≠ none := by
  cases hsettings : checkSettings b <;> cases hopens : reply.opens <;>
    cases htest : reply.test <;>
    simp only [configure, Call.run, Call.step, hsettings, hopens, htest, Prod.mk.injEq,
      reduceCtorEq, false_and] at h
  obtain ⟨-, rfl⟩ := h
  exact Option.some_ne_none _

/-- The data source of the instance in a cell. -/
def Cell.sources (cell : Cell) : List Nat := (cell.instance?.map Instance.source).toList

@[simp] theorem Cell.sources_empty : Cell.empty.sources = [] := rfl

@[simp] theorem Cell.sources_reserved : Cell.reserved.sources = [] := rfl

@[simp] theorem Cell.sources_filled (i : Instance) : (Cell.filled i).sources = [i.source] := rfl

theorem Cell.mem_sources_iff {cell : Cell} {n : Nat} :
    n ∈ cell.sources ↔ ∃ i, cell = .filled i ∧ i.source = n := by
  cases cell <;> simp [eq_comm]

namespace Registry

variable {r r' : Registry} {c c' : Call} {calls steps : List Call} {id : String}
  {i : Instance} {slot m n : Nat}

/-! ### Where the data sources are -/

/-- The data source that a call has opened, and has not put into a cell yet. -/
def Call.held : Call → List Nat
  | filling _ i | storing i | replacing i => [i.source]
  | _ => []

/-- The data sources of the instances in the cells. -/
def placed (r : Registry) : List Nat := r.cells.flatMap Cell.sources

theorem Call.IsStart.held (h : c.IsStart) : c.held = [] := by cases h <;> rfl

theorem getElem?_cells (h : slot < r.cells.length) : r.cells[slot]? = some (r.cell slot) := by
  rw [cell, List.getD_eq_getElem?_getD, List.getElem?_eq_getElem h, Option.getD_some]

theorem mem_placed_iff : n ∈ r.placed ↔ ∃ slot i, r.cell slot = .filled i ∧ i.source = n := by
  simp only [placed, List.mem_flatMap, Cell.mem_sources_iff]
  constructor
  · rintro ⟨cell, hcell, i, rfl, hi⟩
    obtain ⟨slot, hslot⟩ := List.mem_iff_getElem?.mp hcell
    obtain ⟨hlt, -⟩ := List.getElem?_eq_some_iff.mp hslot
    exact ⟨slot, i, Option.some.inj ((getElem?_cells hlt).symm.trans hslot), hi⟩
  · rintro ⟨slot, i, hcell, hi⟩
    have hlt : slot < r.cells.length := lt_length_of_cell_ne_empty (by rw [hcell]; nofun)
    exact ⟨r.cell slot, List.mem_of_getElem? (getElem?_cells hlt), i, hcell, hi⟩

theorem count_placed_setCell (h : slot < r.cells.length) (cell : Cell) (n : Nat) :
    (r.setCell slot cell).placed.count n + (r.cell slot).sources.count n =
      r.placed.count n + cell.sources.count n :=
  count_flatMap_set Cell.sources (getElem?_cells h) cell n

theorem count_placed_addSlot (r : Registry) (id : String) (cell : Cell) (n : Nat) :
    (r.addSlot id cell).placed.count n = r.placed.count n + cell.sources.count n :=
  count_flatMap_concat Cell.sources r.cells cell n

/-- **A step moves a data source from one place to the next**: from the call that has opened
it to a cell, where it stays. -/
theorem Trace.IsOrderly.held_moves (h : Trace.IsOrderly ⟨⟨r, calls⟩, steps⟩) (hc : c ∈ calls)
    (hmoves : c.Moves r c' r') (n : Nat) :
    r'.placed.count n + c'.held.count n + (List.range r.sources.length).count n =
      r.placed.count n + c.held.count n + (List.range r'.sources.length).count n := by
  -- A cell that a call has reserved holds nothing.
  have hreserved {slot : Nat} (hslot : slot ∈ c.reserved) (cell : Cell) :
      (r.setCell slot cell).placed.count n = r.placed.count n + cell.sources.count n := by
    have hcell := h.cell_of_mem_reserved hc hslot
    have hlt : slot < r.cells.length := lt_length_of_cell_ne_empty (by rw [hcell]; nofun)
    have hcount := count_placed_setCell hlt cell n
    rwa [hcell, Cell.sources_reserved, List.count_nil, Nat.add_zero] at hcount
  cases hmoves with
  | claimed =>
      rw [count_placed_addSlot]
      rfl
  | @reserves id slot hcell =>
      have hlt : slot < r.cells.length := (h.entered _ hc _ (List.mem_singleton_self _)).1
      have hcount := count_placed_setCell hlt .reserved n
      rw [hcell, Cell.sources_empty, Cell.sources_reserved, List.count_nil, Nat.add_zero] at hcount
      rw [hcount]
      rfl
  | forgets | fails =>
      rw [hreserved (List.mem_singleton_self _)]
      rfl
  | fills =>
      rw [hreserved (List.mem_singleton_self _), Cell.sources_filled]
      rfl
  | opens hsource | validates hsource =>
      have hplaced (s : DataSource) : (r.addSource s).placed = r.placed := rfl
      rw [length_addSource, count_range_succ, hplaced]
      simp only [Call.held, hsource, List.count_nil]
      omega
  | replaces | installs =>
      rw [count_placed_addSlot, Cell.sources_filled]
      rfl
  | retires | releases =>
      rw [length_sources_retireSlot, placed, cells_retireSlot]
      rfl
  | _ => rfl

/-! ### What is closed -/

/-- **A step hands to a close what is in the cell that it looks into**, and nothing else. -/
theorem Call.Moves.retired_eq (h : c.Moves r c' r') :
    r'.retired = r.retired ++ c.looks.flatMap fun slot => (r.cell slot).sources := by
  have hlook (slot : Nat) : (r.retireSlot slot).retired = r.retired ++ (r.cell slot).sources := by
    rw [retireSlot_eq, Cell.sources]
    cases (r.cell slot).instance? with
    | none => exact (List.append_nil _).symm
    | some i => rfl
  cases h with
  | retires | releases =>
      rw [hlook, Call.looks, List.flatMap_singleton]
  | rests hc => cases hc <;> exact (List.append_nil _).symm
  | _ => exact (List.append_nil _).symm

/-- A call on its way has to do with a data source: it has opened it and not put it into a
cell yet, or it has taken away the slot in which it is. -/
def Run.Carries (run : Run) (n : Nat) : Prop :=
  ∃ c ∈ run.calls, n ∈ c.held ∨ ∃ slot ∈ c.taken, n ∈ (run.registry.cell slot).sources

/-- Among the steps, a call filled a cell behind one that had looked into it. -/
def IsLate (steps : List Call) (slot : Nat) (i : Instance) : Prop :=
  ∃ c, slot ∈ c.looks ∧ [c, .filling slot i].Sublist steps

/-- A pair of steps is among one more step, or the second one is that step. -/
theorem pair_sublist_concat_iff {a b : Call} :
    [a, b].Sublist (steps ++ [c]) ↔ [a, b].Sublist steps ∨ a ∈ steps ∧ b = c := by
  constructor
  · intro h
    obtain ⟨l₁, l₂, heq, hl₁, hl₂⟩ := List.sublist_append_iff.mp h
    rcases List.sublist_singleton.mp hl₂ with rfl | rfl
    · rw [List.append_nil] at heq
      exact Or.inl (heq ▸ hl₁)
    · obtain ⟨rfl, hb⟩ := List.append_inj' (show [a] ++ [b] = l₁ ++ [c] from heq) rfl
      exact Or.inr ⟨List.singleton_sublist.mp hl₁, List.singleton_inj.mp hb⟩
  · rintro (h | ⟨ha, rfl⟩)
    · exact h.trans (List.sublist_append_left _ _)
    · exact (List.singleton_sublist.mpr ha).append (List.Sublist.refl [b])

theorem isLate_concat_iff :
    IsLate (steps ++ [c]) slot i ↔
      IsLate steps slot i ∨ slot ∈ steps.flatMap Call.looks ∧ c = .filling slot i := by
  simp only [IsLate, pair_sublist_concat_iff, List.mem_flatMap]
  constructor
  · rintro ⟨d, hd, hold | ⟨hmem, rfl⟩⟩
    · exact Or.inl ⟨d, hd, hold⟩
    · exact Or.inr ⟨⟨d, hmem, hd⟩, rfl⟩
  · rintro (⟨d, hd, hold⟩ | ⟨⟨d, hmem, hd⟩, rfl⟩)
    · exact ⟨d, hd, Or.inl hold⟩
    · exact ⟨d, hd, Or.inr ⟨hmem, rfl⟩⟩

/-- A cell that was filled late was looked into. -/
theorem IsLate.looked (h : IsLate steps slot i) : slot ∈ steps.flatMap Call.looks := by
  obtain ⟨d, hd, hsteps⟩ := h
  exact List.mem_flatMap.mpr ⟨d, hsteps.subset List.mem_cons_self, hd⟩

/-- **The data sources are accounted for.** Every data source is in one cell or held by one
call. It gives connections unless it was handed to a close; it was handed to a close when its
cell was looked into, unless the cell was filled late. -/
structure Trace.IsOwned (t : Trace) : Prop where
  places : ∀ n, t.run.registry.placed.count n + (t.run.calls.flatMap Call.held).count n =
    (List.range t.run.registry.sources.length).count n
  active_iff : ∀ n, (t.run.registry.source n).active = none ↔
    n ∈ t.run.registry.retired ∨ t.run.registry.sources.length ≤ n
  placed_of_retired : ∀ n ∈ t.run.registry.retired, n ∈ t.run.registry.placed
  filled_of_late : ∀ {slot i}, IsLate t.steps slot i → t.run.registry.cell slot = .filled i
  retired_iff : ∀ {slot i}, t.run.registry.cell slot = .filled i →
    (i.source ∈ t.run.registry.retired ↔
      slot ∈ t.steps.flatMap Call.looks ∧ ¬ IsLate t.steps slot i)

section

variable (howned : Trace.IsOwned ⟨⟨r, calls⟩, steps⟩)
include howned

theorem Trace.IsOwned.count_eq (n : Nat) :
    r.placed.count n + (calls.flatMap Call.held).count n =
      (List.range r.sources.length).count n := howned.places n

/-- A data source that is held was opened, and was not handed to a close. -/
theorem Trace.IsOwned.of_held (hc : c ∈ calls) (hn : n ∈ c.held) :
    n < r.sources.length ∧ n ∉ r.retired := by
  have hpos := List.count_pos_iff.mpr hn
  have hle := count_le_count_flatMap Call.held hc n
  have hplaces := howned.count_eq n
  have hone := count_range_le_one n r.sources.length
  have hplaced : n ∉ r.placed := List.count_eq_zero.mp (by omega)
  exact ⟨count_range_pos_iff.mp (by omega),
    fun hretired => hplaced (howned.placed_of_retired n hretired)⟩

/-- A data source that is in a cell was opened. -/
theorem Trace.IsOwned.lt_length (hn : n ∈ r.placed) : n < r.sources.length := by
  have hpos := List.count_pos_iff.mpr hn
  have hplaces := howned.count_eq n
  exact count_range_pos_iff.mp (by omega)

/-- No data source is in two cells. -/
theorem Trace.IsOwned.cell_injective {j : Instance} (hi : r.cell slot = .filled i)
    (hj : r.cell m = .filled j) (hsource : i.source = j.source) : slot = m := by
  by_contra hne
  -- With the one cell emptied, the data source is still in the other one.
  have hlt : slot < r.cells.length := lt_length_of_cell_ne_empty (by rw [hi]; nofun)
  have hother : (r.setCell slot .empty).cell m = .filled j := by
    rw [cell_setCell hlt, if_neg (Ne.symm hne), hj]
  have hpos := List.count_pos_iff.mpr (mem_placed_iff.mpr ⟨m, j, hother, rfl⟩)
  have hcount := count_placed_setCell hlt .empty j.source
  have hplaces := howned.count_eq j.source
  rw [hi, Cell.sources_filled, Cell.sources_empty, hsource, List.count_singleton_self,
    List.count_nil] at hcount
  have hone := count_range_le_one j.source r.sources.length
  omega

/-! ### One step -/

variable (h : Trace.IsOrderly ⟨⟨r, calls⟩, steps⟩) (hc : c ∈ calls) (hmoves : c.Moves r c' r')
include h hc hmoves

theorem Trace.IsOwned.placed_of_retired_moves (hn : n ∈ r'.retired) : n ∈ r'.placed := by
  have hkept {slot : Nat} {i : Instance} (hcell : r.cell slot = .filled i) :
      i.source ∈ r'.placed :=
    mem_placed_iff.mpr ⟨slot, i, (h.filled_iff hc hmoves slot).mpr (Or.inl hcell), rfl⟩
  rw [hmoves.retired_eq, List.mem_append, List.mem_flatMap] at hn
  rcases hn with hold | ⟨slot, -, hnew⟩
  · obtain ⟨slot, i, hcell, rfl⟩ := mem_placed_iff.mp (howned.placed_of_retired n hold)
    exact hkept hcell
  · obtain ⟨i, hcell, rfl⟩ := Cell.mem_sources_iff.mp hnew
    exact hkept hcell

theorem Trace.IsOwned.filled_of_late_moves (hlate : IsLate (steps ++ [c]) slot i) :
    r'.cell slot = .filled i := by
  refine (h.filled_iff hc hmoves slot).mpr ?_
  rcases isLate_concat_iff.mp hlate with hold | ⟨-, hfills⟩
  · exact Or.inl (howned.filled_of_late hold)
  · exact Or.inr (Or.inl hfills)

theorem Trace.IsOwned.retired_iff_moves (hcell : r'.cell slot = .filled i) :
    i.source ∈ r'.retired ↔
      slot ∈ (steps ++ [c]).flatMap Call.looks ∧ ¬ IsLate (steps ++ [c]) slot i := by
  rw [hmoves.retired_eq, List.mem_append, List.flatMap_append, List.mem_append,
    List.flatMap_singleton, isLate_concat_iff]
  rcases (h.filled_iff hc hmoves slot).mp hcell with hold | rfl | ⟨rfl, rfl⟩
  · -- The cell was filled before, so only the step that looks into it can make a difference.
    have hfills : c ≠ .filling slot i := by
      rintro rfl
      have hreserved := h.cell_of_mem_reserved hc (List.mem_singleton_self _)
      rw [hold] at hreserved
      cases hreserved
    have hlooks : i.source ∈ c.looks.flatMap (fun slot => (r.cell slot).sources) ↔
        slot ∈ c.looks := by
      constructor
      · intro hmem
        obtain ⟨m, hm, hsource⟩ := List.mem_flatMap.mp hmem
        obtain ⟨j, hj, hsource⟩ := Cell.mem_sources_iff.mp hsource
        rwa [howned.cell_injective hold hj hsource.symm]
      · exact fun hmem => List.mem_flatMap.mpr
          ⟨slot, hmem, Cell.mem_sources_iff.mpr ⟨i, hold, rfl⟩⟩
    have honce (hlook : slot ∈ c.looks) : slot ∉ steps.flatMap Call.looks := fun hlooked =>
      (h.notMem_of_looked hlooked).2.2
        (List.mem_flatMap.mpr ⟨c, hc, Call.mem_taken_of_mem_looks hlook⟩)
    have hlate : IsLate steps slot i → slot ∈ steps.flatMap Call.looks := IsLate.looked
    rw [howned.retired_iff hold, hlooks]
    tauto
  · have hnew := (howned.of_held hc (List.mem_singleton_self _)).2
    simp only [hnew, Call.looks, List.flatMap_nil, List.not_mem_nil, or_false, and_true]
    tauto
  · have hnew := (howned.of_held hc (List.mem_singleton_self _)).2
    have hlooked : r.cells.length ∉ steps.flatMap Call.looks := fun hmem =>
      Nat.lt_irrefl _ (h.notMem_of_looked hmem).1
    simp only [hnew, hlooked, Call.looks, List.flatMap_nil, List.not_mem_nil, or_false, false_and]

end

/-- An opened data source gives connections. -/
theorem Trace.IsOwned.active_iff_addSource (howned : Trace.IsOwned ⟨⟨r, calls⟩, steps⟩)
    {s : DataSource} (hi : i.IsConfiguredWith s) (n : Nat) :
    ((r.addSource s).source n).active = none ↔
      n ∈ r.retired ∨ (r.addSource s).sources.length ≤ n := by
  obtain ⟨-, reply, hconf⟩ := hi
  have hactive := DataSource.active_of_configure hconf
  have hold : (r.source n).active = none ↔ n ∈ r.retired ∨ r.sources.length ≤ n :=
    howned.active_iff n
  rw [source_addSource, length_addSource]
  split
  · next heq =>
      have hnew : n ∉ r.retired := fun hmem =>
        Nat.ne_of_lt (howned.lt_length (howned.placed_of_retired n hmem)) heq
      exact iff_of_false hactive (not_or.mpr ⟨hnew, by omega⟩)
  · next hne =>
      rw [hold]
      exact or_congr_right (by omega)

/-- A data source that is handed to a close gives none. -/
theorem Trace.IsOwned.active_iff_retireSlot (howned : Trace.IsOwned ⟨⟨r, calls⟩, steps⟩)
    (slot n : Nat) :
    ((r.retireSlot slot).source n).active = none ↔
      n ∈ (r.retireSlot slot).retired ∨ (r.retireSlot slot).sources.length ≤ n := by
  have hold : (r.source n).active = none ↔ n ∈ r.retired ∨ r.sources.length ≤ n :=
    howned.active_iff n
  rw [length_sources_retireSlot]
  cases hcell : r.cell slot with
  | filled i =>
      have hlt : i.source < r.sources.length :=
        howned.lt_length (mem_placed_iff.mpr ⟨slot, i, hcell, rfl⟩)
      have hretire : r.retireSlot slot = r.retire i.source := by rw [retireSlot_eq, hcell]; rfl
      have hretired : (r.retire i.source).retired = r.retired ++ [i.source] := rfl
      rw [hretire, source_retire hlt, hretired, List.mem_append, List.mem_singleton]
      split
      · next heq => exact iff_of_true (active_close _) (Or.inl (Or.inr heq))
      · next hne =>
          rw [or_iff_left hne]
          exact hold
  | empty | reserved =>
      have hsame : r.retireSlot slot = r := by rw [retireSlot_eq, hcell]; rfl
      rw [hsame]
      exact hold

theorem Trace.IsOwned.active_iff_moves (howned : Trace.IsOwned ⟨⟨r, calls⟩, steps⟩)
    (hmoves : c.Moves r c' r') (n : Nat) :
    (r'.source n).active = none ↔ n ∈ r'.retired ∨ r'.sources.length ≤ n := by
  cases hmoves with
  | opens hsource hi | validates hsource hi => exact howned.active_iff_addSource hi n
  | retires | releases => exact howned.active_iff_retireSlot _ n
  | _ => exact howned.active_iff n

/-- **Every step keeps the data sources accounted for.** -/
theorem Trace.IsOwned.moves (howned : Trace.IsOwned ⟨⟨r, calls⟩, steps⟩)
    (h : Trace.IsOrderly ⟨⟨r, calls⟩, steps⟩) {k : Nat} (hk : calls[k]? = some c)
    (hmoves : c.Moves r c' r') : Trace.IsOwned ⟨⟨r', calls.set k c'⟩, steps ++ [c]⟩ where
  places n := by
    have hstep := h.held_moves (List.mem_of_getElem? hk) hmoves n
    have hcalls := count_flatMap_set Call.held hk c' n
    have hplaces := howned.count_eq n
    simp only
    omega
  active_iff := howned.active_iff_moves hmoves
  placed_of_retired _ := howned.placed_of_retired_moves h (List.mem_of_getElem? hk) hmoves
  filled_of_late := howned.filled_of_late_moves h (List.mem_of_getElem? hk) hmoves
  retired_iff := howned.retired_iff_moves h (List.mem_of_getElem? hk) hmoves

theorem Trace.IsOwned.starts (howned : Trace.IsOwned ⟨⟨r, calls⟩, steps⟩) (hc : c.IsStart) :
    Trace.IsOwned ⟨⟨r, calls ++ [c]⟩, steps⟩ where
  places n := by
    rw [← howned.places n]
    simp only [count_flatMap_concat, hc.held, List.count_nil, Nat.add_zero]
  active_iff := howned.active_iff
  placed_of_retired := howned.placed_of_retired
  filled_of_late := howned.filled_of_late
  retired_iff := howned.retired_iff

/-! ### Every order of steps -/

/-- **In every order of steps the data sources are accounted for.** -/
theorem Trace.Reached.isOwned {realms : List RealmConfig} {t : Trace} (h : t.Reached realms) :
    t.IsOwned := by
  induction h with
  | initial =>
      refine ⟨fun n => rfl, fun n => ?_, fun n hn => absurd hn List.not_mem_nil, ?_, ?_⟩
      · exact iff_of_true rfl (Or.inr (Nat.zero_le n))
      · rintro slot i ⟨c, -, hsteps⟩
        cases hsteps
      · intro slot i hcell
        cases hcell
  | starts h hc ih => exact ih.starts hc
  | moves h hn hmoves ih => exact ih.moves h.isOrderly hn hmoves

/-- The data source of an instance in a cell gives connections until somebody has looked into
the cell, and goes on to give them when the cell was filled late. -/
theorem Trace.IsOwned.active_iff_of_filled (howned : Trace.IsOwned ⟨⟨r, calls⟩, steps⟩)
    (hcell : r.cell slot = .filled i) :
    (r.source i.source).active ≠ none ↔
      slot ∉ steps.flatMap Call.looks ∨ IsLate steps slot i := by
  have hlt : i.source < r.sources.length :=
    howned.lt_length (mem_placed_iff.mpr ⟨slot, i, hcell, rfl⟩)
  have hactive : (r.source i.source).active = none ↔ i.source ∈ r.retired :=
    (howned.active_iff i.source).trans (or_iff_left (Nat.not_le.mpr hlt))
  rw [Ne, hactive, howned.retired_iff hcell]
  tauto

/-- A data source was put into a cell behind the step that had looked into it. -/
def IsLost (steps : List Call) (n : Nat) : Prop := ∃ slot i, i.source = n ∧ IsLate steps slot i

/-- **A data source is open exactly when it is in a slot, or a call on its way has to do with
it, or it is lost.** -/
theorem Trace.IsOwned.active_ne_none_iff (howned : Trace.IsOwned ⟨⟨r, calls⟩, steps⟩)
    (h : Trace.IsOrderly ⟨⟨r, calls⟩, steps⟩) (n : Nat) :
    (r.source n).active ≠ none ↔
      r.Holds n ∨ Run.Carries ⟨r, calls⟩ n ∨ IsLost steps n := by
  constructor
  · intro hactive
    have hopen := not_or.mp (mt (howned.active_iff n).mpr hactive)
    have hplaces := howned.count_eq n
    have hpos : 0 < r.placed.count n ∨ 0 < (calls.flatMap Call.held).count n := by
      have hlt : n < r.sources.length := Nat.not_le.mp hopen.2
      have hsome := count_range_pos_iff.mpr hlt
      omega
    rcases hpos with hplaced | hheld
    · obtain ⟨slot, i, hcell, rfl⟩ := mem_placed_iff.mp (List.count_pos_iff.mp hplaced)
      have hsource : i.source ∈ (r.cell slot).sources := Cell.mem_sources_iff.mpr ⟨i, hcell, rfl⟩
      rcases h.place_cases (lt_length_of_cell_ne_empty (by rw [hcell]; nofun)) with
        ⟨id, hid⟩ | ⟨c, hc, htaken⟩ | hlooked
      · exact Or.inl ⟨id, i, running_eq_some_iff.mpr ⟨slot, hid, hcell⟩, rfl⟩
      · exact Or.inr (Or.inl ⟨c, hc, Or.inr ⟨slot, htaken, hsource⟩⟩)
      · have hlate := (howned.active_iff_of_filled hcell).mp hactive
        exact Or.inr (Or.inr ⟨slot, i, rfl, hlate.resolve_left (not_not_intro hlooked)⟩)
    · obtain ⟨c, hc, hn⟩ := List.mem_flatMap.mp (List.count_pos_iff.mp hheld)
      exact Or.inr (Or.inl ⟨c, hc, Or.inl hn⟩)
  · rintro (⟨id, i, hi, rfl⟩ | ⟨c, hc, hn | ⟨slot, hslot, hn⟩⟩ | ⟨slot, i, rfl, hlate⟩)
    · obtain ⟨slot, hslot, hcell⟩ := running_eq_some_iff.mp hi
      refine (howned.active_iff_of_filled hcell).mpr (Or.inl fun hlooked => ?_)
      exact (h.notMem_of_looked hlooked).2.1
        (List.mem_map_of_mem (KeyedList.get?_eq_some_iff.mp hslot))
    · obtain ⟨hlt, hopen⟩ := howned.of_held hc hn
      exact mt (howned.active_iff n).mp (not_or.mpr ⟨hopen, Nat.not_le.mpr hlt⟩)
    · obtain ⟨i, hcell, rfl⟩ := Cell.mem_sources_iff.mp hn
      refine (howned.active_iff_of_filled hcell).mpr (Or.inl fun hlooked => ?_)
      exact (h.notMem_of_looked hlooked).2.2 (List.mem_flatMap.mpr ⟨c, hc, hslot⟩)
    · exact (howned.active_iff_of_filled (howned.filled_of_late hlate)).mpr (Or.inr hlate)

/-! ### Closing at the end -/

/-- A call that closes everything. -/
inductive Call.IsClosing : Call → Prop
  | draining : IsClosing .draining
  | releasing (slots : List Nat) : IsClosing (.releasing slots)

theorem Call.IsClosing.step (h : c.IsClosing) (reply : Backend → Reply) (r : Registry) :
    (c.step reply r).1.IsClosing := by
  cases h with
  | draining => exact .releasing _
  | releasing slots => cases slots <;> exact .releasing _

/-- The steps of the last call, one after the other. -/
theorem Trace.foldl_steps (reply : Backend → Reply) (k : Nat) (r : Registry)
    (calls steps : List Call) {c : Call} (hc : c.IsClosing) :
    ∃ later, (∀ d ∈ later, d.IsClosing) ∧
      (List.replicate k (Event.steps calls.length reply)).foldl Trace.next
          ⟨⟨r, calls ++ [c]⟩, steps⟩ =
        ⟨⟨(c.run reply k r).2, calls ++ [(c.run reply k r).1]⟩, steps ++ later⟩ := by
  induction k generalizing r steps c with
  | zero =>
      refine ⟨[], fun d hd => absurd hd List.not_mem_nil, ?_⟩
      rw [List.append_nil]
      rfl
  | succ k ih =>
      obtain ⟨later, hlater, heq⟩ := ih (c.step reply r).2 (steps ++ [c]) (hc.step reply r)
      have hnext : Trace.next ⟨⟨r, calls ++ [c]⟩, steps⟩ (Event.steps calls.length reply) =
          ⟨⟨(c.step reply r).2, calls ++ [(c.step reply r).1]⟩, steps ++ [c]⟩ := by
        simp [Trace.next, Run.next, Run.moving]
      refine ⟨c :: later, List.forall_mem_cons.mpr ⟨hc, hlater⟩, ?_⟩
      rw [List.replicate_succ, List.foldl_cons, hnext, heq, List.append_assoc]
      rfl

/-- A call that closes everything fills no cell. -/
theorem isLost_append_iff {later : List Call} (hlater : ∀ d ∈ later, d.IsClosing) (n : Nat) :
    IsLost (steps ++ later) n ↔ IsLost steps n := by
  have hlate {slot : Nat} {i : Instance} :
      IsLate (steps ++ later) slot i ↔ IsLate steps slot i := by
    induction later generalizing steps with
    | nil => rw [List.append_nil]
    | cons d later ih =>
        have hfills : d ≠ .filling slot i := by
          rintro rfl
          cases hlater _ List.mem_cons_self
        rw [List.append_cons, ih fun d hd => hlater d (List.mem_cons_of_mem _ hd),
          isLate_concat_iff, or_iff_left fun h => hfills h.2]
  simp only [IsLost, hlate]

/-- A call that closes everything comes to its end, and no slot is left behind it. -/
theorem run_draining (reply : Backend → Reply) (r : Registry) :
    Call.draining.run reply (1 + r.slots.size) r = (.releasing [], r.close reply) ∧
      (r.close reply).slots = .empty := by
  have hrun (slots : List Nat) (r : Registry) :
      ((Call.releasing slots).run reply slots.length r).1 = .releasing [] ∧
        (slots.foldl retireSlot r).slots = r.slots := by
    induction slots generalizing r with
    | nil => exact ⟨rfl, rfl⟩
    | cons slot slots ih =>
        obtain ⟨hcall, hslots⟩ := ih (r.retireSlot slot)
        exact ⟨hcall, hslots.trans (slots_retireSlot r slot)⟩
  have hlength : r.slotNumbers.length = r.slots.size := List.length_map _
  obtain ⟨hcall, hslots⟩ := hrun r.slotNumbers { r with slots := .empty }
  refine ⟨Prod.ext ?_ rfl, by rw [close_eq]; exact hslots⟩
  rw [Nat.add_comm, ← hlength]
  exact hcall

/-- **Closing everything is one more call**, which comes to its end. -/
theorem Trace.Reached.closes {realms : List RealmConfig}
    (h : Trace.Reached realms ⟨⟨r, calls⟩, steps⟩) (reply : Backend → Reply) :
    ∃ later, (∀ d ∈ later, d.IsClosing) ∧
      Trace.Reached realms ⟨⟨r.close reply, calls ++ [.releasing []]⟩, steps ++ later⟩ := by
  obtain ⟨later, hlater, heq⟩ :=
    Trace.foldl_steps reply (1 + r.slots.size) r calls steps Call.IsClosing.draining
  have hreached := (h.starts .closes).foldl_next
    (List.replicate (1 + r.slots.size) (Event.steps calls.length reply))
  rw [heq, (run_draining reply r).1] at hreached
  exact ⟨later, hlater, hreached⟩

/-- A call behind its last step has to do with no data source. -/
theorem Run.not_carries {run : Run} (hover : ∀ c ∈ run.calls, c.IsOver) : ¬ run.Carries n := by
  rintro ⟨c, hc, hn | ⟨slot, hslot, -⟩⟩
  · cases hover c hc <;> cases hn
  · cases hover c hc <;> cases hslot

/-- **When no call is on its way, closing everything closes what is not lost.** -/
theorem Trace.Reached.active_close_iff {realms : List RealmConfig}
    (h : Trace.Reached realms ⟨⟨r, calls⟩, steps⟩) (hover : ∀ c ∈ calls, c.IsOver)
    (reply : Backend → Reply) (n : Nat) :
    ((r.close reply).source n).active ≠ none ↔ IsLost steps n := by
  obtain ⟨later, hlater, hclosed⟩ := h.closes reply
  have hovers : ∀ c ∈ calls ++ [.releasing []], c.IsOver := by
    intro c hc
    rcases List.mem_append.mp hc with hold | hnew
    · exact hover c hold
    · obtain rfl := List.mem_singleton.mp hnew
      exact .released
  have hheld : ¬ (r.close reply).Holds n := fun ⟨_, _, hi, _⟩ =>
    running_ne_of_empty (run_draining reply r).2 hi
  rw [hclosed.isOwned.active_ne_none_iff hclosed.isOrderly, or_iff_right hheld,
    or_iff_right (Run.not_carries hovers), isLost_append_iff hlater]

/-- **Which data sources are open**, in every order of steps: those in slots, those with which
a call on its way has to do, and those that are lost. When no call is on its way, closing
everything leaves open those that are lost, and no others. -/
theorem open_iff_owned_or_lost (realms : List RealmConfig) (events : List Event) :
    let trace := Trace.of realms events
    let r := trace.run.registry
    (∀ n, (r.source n).active ≠ none ↔
      r.Holds n ∨ trace.run.Carries n ∨ IsLost trace.steps n) ∧
    ((∀ c ∈ trace.run.calls, c.IsOver) → ∀ reply n,
      ((r.close reply).source n).active ≠ none ↔ IsLost trace.steps n) := by
  intro trace r
  have hreached := Trace.reached realms events
  exact ⟨hreached.isOwned.active_ne_none_iff hreached.isOrderly,
    fun hover reply n => hreached.active_close_iff hover reply n⟩

/-- A call has made a slot for a realm and not reserved its cell yet, when everything is closed.
Then it fills the cell. Nothing closes the data source that it has opened, not even closing
everything again. -/
theorem open_iff_owned_or_lost_late_filling :
    let willing : Backend → Reply := fun _ => ⟨.ok (), .ok ()⟩
    let initial : RealmConfig := { id := "default", database := Backend.inMemory }
    let steps (call : Nat) : Event := .steps call willing
    let events := [.gets "default", steps 0, steps 0, steps 0, .closes, steps 1, steps 1,
      steps 0, steps 0, steps 0, steps 0]
    let trace := Trace.of [initial] events
    let r := trace.run.registry
    (∀ c ∈ trace.run.calls, c.IsOver) ∧ r.slots.isEmpty ∧
      ((r.close willing).source 0).active ≠ none ∧
        ∃ slot i, i.source = 0 ∧ IsLate trace.steps slot i := by
  intro willing initial steps events trace r
  have hover : ∀ c ∈ trace.run.calls, c.IsOver := by decide +kernel
  have hempty : r.slots.isEmpty := by decide +kernel
  have hopen : ((r.close willing).source 0).active ≠ none := by decide +kernel
  -- From here on the trace is any trace of which the theorem and these facts hold.
  have hiff := open_iff_owned_or_lost [initial] events
  have htrace : Trace.of [initial] events = trace := rfl
  rw [htrace] at hiff
  clear_value trace
  exact ⟨hover, hempty, hopen, (hiff.2 hover willing 0).mp hopen⟩

end Registry

end RealmDirectory
