import Mathlib.Data.List.Induction
import RealmDirectory.Directory.DataSource
import RealmDirectory.Proofs.Directory.Counting

/-!
# Pools of a data source

A data source is configured while others configure it, take connections and close it, and a
pool is opened before it is known to be of use. This module follows every pool through all
orders of steps. A configure holds the pool that it has opened until it makes the pool the
active one, or hands it to a close because the test query failed. The active pool is handed to a
close by the step that replaces it or takes it away. So a pool is in one place at any time, and
is closed once.

What a step can do is said once, in `Call.Moves` and `Run.Follows`. Every invariant is kept by
each of the cases, and then by induction on the events.

## Main definitions

* `Call.Moves`, `Run.Follows`: what a step of a call, and an event, come to.
* `Call.held`, `Run.held`: the pools that calls hold.
* `Run.IsAccounted`: where the pools are.
* `PassedIn`: a pool has passed its test in the course of some events.

## Main results

* `Call.Moves.places`: every step moves pools from one place to the next.
* `Run.isAccounted`: the pools are accounted for in every order of steps.
* `passedIn_of_mem_passed`: the pools that passed their test did so in some step.
* `Run.active_eq_of_failed`: a configure that fails leaves the active pool alone.
* `Run.pools_accounted`: the whole statement.
-/

namespace RealmDirectory.DataSource

variable {reply : Reply} {s s' : DataSource} {c c' : Call} {r r' : Run} {events : List Event}
  {e : Event} {pool : Pool} {i : Nat}

/-! ### Steps -/

/-- A call before its first step. -/
inductive Call.IsStart : Call → Prop
  | configures (b : Backend) : IsStart (.configuring b)
  | acquires : IsStart .acquiring
  | closes : IsStart .closing

/-- A call behind its last step. -/
inductive Call.IsOver : Call → Prop
  | configured (result : Except Failure Unit) : IsOver (.configured result)
  | acquired (result : Except Failure Pool) : IsOver (.acquired result)
  | closed : IsOver .closed

/-- **What one step comes to**: the call before the step, the call behind it, and the data source
behind it. What the database says decides between the cases. -/
inductive Call.Moves (reply : Reply) (s : DataSource) : Call → Call → DataSource → Prop
  | refuses {b : Backend} {f : Failure} (hsettings : checkSettings b = .error f) :
      Moves reply s (.configuring b) (.configured (.error f)) s
  | misconnects {b : Backend} {reason : String} (hsettings : checkSettings b = .ok ())
      (hopens : reply.opens = .error reason) :
      Moves reply s (.configuring b) (.configured (.error (refused b reason))) s
  | opens {b : Backend} (hsettings : checkSettings b = .ok ()) (hopens : reply.opens = .ok ()) :
      Moves reply s (.configuring b) (.testing ⟨s.opened.length, b.dialect⟩)
        { s with opened := s.opened ++ [⟨s.opened.length, b.dialect⟩] }
  | passes {pool : Pool} (htest : reply.test = .ok ()) :
      Moves reply s (.testing pool) (.publishing pool) { s with passed := s.passed ++ [pool] }
  | fails {pool : Pool} {f : Failure} (htest : reply.test = .error f) :
      Moves reply s (.testing pool) (.configured (.error (untested f)))
        { s with retired := s.retired ++ [pool] }
  | publishes {pool : Pool} :
      Moves reply s (.publishing pool) (.configured (.ok ()))
        { s with active := some pool, retired := s.retired ++ s.active.toList }
  | finds {pool : Pool} (hactive : s.active = some pool) :
      Moves reply s .acquiring (.connecting pool) s
  | misses (hactive : s.active = none) :
      Moves reply s .acquiring (.acquired (.error unavailable)) s
  | connects {pool : Pool} (hretired : pool ∉ s.retired) :
      Moves reply s (.connecting pool) (.acquired (.ok pool)) s
  | comesLate {pool : Pool} (hretired : pool ∈ s.retired) :
      Moves reply s (.connecting pool) (.acquired (.error gone)) s
  | closes :
      Moves reply s .closing .closed
        { s with active := none, retired := s.retired ++ s.active.toList }
  | rests {c : Call} (hover : c.IsOver) : Moves reply s c c s

/-- **Every step is one of the cases.** -/
theorem Call.moves (reply : Reply) (s : DataSource) (c : Call) :
    c.Moves reply s (c.step reply s).1 (c.step reply s).2 := by
  cases c with
  | configuring b =>
      rw [step]
      split
      · next hsettings => exact .refuses hsettings
      · next hsettings hopens => exact .misconnects hsettings hopens
      · next hsettings hopens => exact .opens hsettings hopens
  | testing pool =>
      rw [step]
      split
      · next htest => exact .passes htest
      · next htest => exact .fails htest
  | publishing pool => exact .publishes
  | configured result => exact .rests (.configured result)
  | acquiring =>
      rw [step]
      split
      · next hactive => exact .finds hactive
      · next hactive => exact .misses hactive
  | connecting pool =>
      rw [step]
      split
      · next hretired => exact .comesLate (List.contains_iff_mem.mp hretired)
      · next hretired =>
          exact .connects fun hmem => hretired (List.contains_iff_mem.mpr hmem)
  | acquired result => exact .rests (.acquired result)
  | closing => exact .closes
  | closed => exact .rests .closed

/-- A call that is over stays as it is, and so does the data source. -/
theorem Call.Moves.eq_of_isOver (h : c.Moves reply s c' s') (hover : c.IsOver) :
    c' = c ∧ s' = s := by
  cases h with
  | rests => exact ⟨rfl, rfl⟩
  | refuses | misconnects | opens | passes | fails | publishes | finds | misses | connects
  | comesLate | closes => cases hover

/-- **The active pool changes only when a configure succeeds or a close ends.** -/
theorem Call.Moves.active_cases (h : c.Moves reply s c' s') :
    s'.active = s.active ∨ c' = .configured (.ok ()) ∨ c' = .closed := by
  cases h with
  | publishes => exact Or.inr (Or.inl rfl)
  | closes => exact Or.inr (Or.inr rfl)
  | refuses | misconnects | opens | passes | fails | finds | misses | connects | comesLate
  | rests => exact Or.inl rfl

/-- **What one event comes to**: a call starts, a call takes a step, or nothing happens. -/
inductive Run.Follows (r : Run) : Event → Run → Prop
  | stays {e : Event} : Follows r e r
  | starts {c : Call} (hc : c.IsStart) : Follows r (.starts c) ⟨r.source, r.calls ++ [c]⟩
  | moves {i : Nat} {reply : Reply} {c c' : Call} {s : DataSource} (hi : r.calls[i]? = some c)
      (hmoves : c.Moves reply r.source c' s) : Follows r (.steps i reply) ⟨s, r.calls.set i c'⟩

/-- **Every event is one of the cases.** -/
theorem Run.follows (r : Run) (e : Event) : r.Follows e (r.next e) := by
  cases e with
  | starts c =>
      cases c with
      | configuring b => exact .starts (.configures b)
      | acquiring => exact .starts .acquires
      | closing => exact .starts .closes
      | testing | publishing | configured | connecting | acquired | closed => exact .stays
  | steps i reply =>
      rw [next]
      split
      · exact .stays
      · next c hi => exact .moves hi (c.moves reply r.source)

/-- One more event. -/
theorem Run.of_concat (events : List Event) (e : Event) :
    Run.of (events ++ [e]) = (Run.of events).next e := by
  rw [Run.of, Run.of, List.foldl_append, List.foldl_cons, List.foldl_nil]

/-! ### Where the pools are -/

/-- The pool that a call has opened, and has neither made the active one nor handed to a
close. -/
def Call.held : Call → List Pool
  | testing pool | publishing pool => [pool]
  | _ => []

/-- The pools that calls hold. -/
def Run.held (r : Run) : List Pool := r.calls.flatMap Call.held

theorem Call.IsStart.held (h : c.IsStart) : c.held = [] := by cases h <;> rfl

/-- **A step moves pools from one place to the next**: what its call gains, the active place
gains, and the closed pools gain, is what is opened. -/
theorem Call.Moves.places (h : c.Moves reply s c' s') (p : Pool) :
    c'.held.count p + s'.active.toList.count p + s'.retired.count p + s.opened.count p =
      c.held.count p + s.active.toList.count p + s.retired.count p + s'.opened.count p := by
  cases h with
  | opens | fails | publishes | closes =>
      simp only [held, List.count_append, List.count_nil, Option.toList]
      omega
  | refuses | misconnects | passes | finds | misses | connects | comesLate | rests => rfl

/-- A pool is opened under the next number. -/
theorem Call.Moves.numbers (h : c.Moves reply s c' s')
    (hnumbers : s.opened.map Pool.number = List.range s.opened.length) :
    s'.opened.map Pool.number = List.range s'.opened.length := by
  cases h with
  | opens =>
      simp only [List.map_append, List.map_cons, List.map_nil, List.length_append,
        List.length_cons, List.length_nil, Nat.zero_add, List.range_succ, hnumbers]
  | refuses | misconnects | passes | fails | publishes | finds | misses | connects | comesLate
  | closes | rests => exact hnumbers

/-! ### Which pools passed their test -/

/-- A pool passes its test in a step of its own, and never loses what it has passed. -/
theorem Call.Moves.mem_passed_iff (h : c.Moves reply s c' s') {p : Pool} :
    p ∈ s'.passed ↔ p ∈ s.passed ∨ c = .testing p ∧ reply.test = .ok () := by
  cases h with
  | @passes pool htest =>
      simp only [List.mem_append, List.mem_singleton, Call.testing.injEq, htest, and_true,
        eq_comm]
  | @fails pool f htest => simp [htest]
  | @rests c hover =>
      refine (or_iff_left fun hboth => ?_).symm
      obtain ⟨rfl, -⟩ := hboth
      cases hover
  | refuses | misconnects | opens | publishes | finds | misses | connects | comesLate
  | closes => simp

/-- A call publishes a pool that has passed its test. -/
theorem Call.Moves.mem_passed_of_publishing (h : c.Moves reply s (.publishing pool) s') :
    pool ∈ s'.passed := by
  cases h with
  | passes => exact List.mem_append_right _ (List.mem_singleton_self pool)
  | rests hover => cases hover

/-- A pool becomes the active one when a call publishes it. -/
theorem Call.Moves.active_or_publishing (h : c.Moves reply s c' s')
    (hactive : s'.active = some pool) : s.active = some pool ∨ c = .publishing pool := by
  cases h with
  | publishes => exact Or.inr (congrArg Call.publishing (Option.some.inj hactive))
  | closes => cases hactive
  | refuses | misconnects | opens | passes | fails | finds | misses | connects | comesLate
  | rests => exact Or.inl hactive

/-! ### All orders of steps -/

/-- The pools of a data source and of the calls on it are accounted for. -/
structure Run.IsAccounted (r : Run) : Prop where
  /-- Pools are numbered in the order in which they were opened. -/
  numbers : r.source.opened.map Pool.number = List.range r.source.opened.length
  /-- A pool is in one place as often as it was opened. -/
  places : ∀ p, r.held.count p + r.source.active.toList.count p + r.source.retired.count p =
    r.source.opened.count p
  /-- The active pool has passed its test. -/
  active_passed : ∀ p, r.source.active = some p → p ∈ r.source.passed
  /-- A pool that is made the active one next has passed its test. -/
  publishing_passed : ∀ p, .publishing p ∈ r.calls → p ∈ r.source.passed

/-- Every event keeps the pools accounted for. -/
theorem Run.IsAccounted.follows (h : r.IsAccounted) (hr : r.Follows e r') : r'.IsAccounted := by
  cases hr with
  | stays => exact h
  | @starts c hc =>
      have hheld (p : Pool) :
          (Run.held ⟨r.source, r.calls ++ [c]⟩).count p = r.held.count p := by
        rw [Run.held, count_flatMap_concat, hc.held, List.count_nil, Nat.add_zero, Run.held]
      refine ⟨h.numbers, fun p => ?_, h.active_passed, fun p hp => ?_⟩
      · rw [hheld]
        exact h.places p
      · rcases List.mem_append.mp hp with hp | hp
        · exact h.publishing_passed p hp
        · obtain rfl := List.mem_singleton.mp hp
          cases hc
  | @moves i reply c c' s hi hmoves =>
      refine ⟨hmoves.numbers h.numbers, fun p => ?_, fun p hp => ?_, fun p hp => ?_⟩
      · have hcalls := count_flatMap_set Call.held hi c' p
        have hstep := hmoves.places p
        have hplaces := h.places p
        simp only [Run.held] at hplaces ⊢
        omega
      · refine hmoves.mem_passed_iff.mpr (Or.inl ?_)
        rcases hmoves.active_or_publishing hp with hactive | rfl
        · exact h.active_passed p hactive
        · exact h.publishing_passed p (List.mem_of_getElem? hi)
      · rcases List.mem_or_eq_of_mem_set hp with hp | rfl
        · exact hmoves.mem_passed_iff.mpr (Or.inl (h.publishing_passed p hp))
        · exact hmoves.mem_passed_of_publishing

/-- **The pools are accounted for in every order of steps.** -/
theorem Run.isAccounted (events : List Event) : (Run.of events).IsAccounted := by
  induction events using List.reverseRecOn with
  | nil => exact ⟨rfl, fun _ => rfl, nofun, nofun⟩
  | append_singleton events e ih =>
      rw [Run.of_concat]
      exact ih.follows ((Run.of events).follows e)

/-- No pool is opened twice. -/
theorem Run.IsAccounted.nodup_opened (h : r.IsAccounted) : r.source.opened.Nodup :=
  List.Nodup.of_map Pool.number (h.numbers ▸ List.nodup_range)

/-- **Every pool that was opened is in one place, and no other pool is anywhere.** -/
theorem Run.IsAccounted.places_eq (h : r.IsAccounted) (p : Pool) :
    r.held.count p + r.source.active.toList.count p + r.source.retired.count p =
      if p ∈ r.source.opened then 1 else 0 := by
  rw [h.places, List.Nodup.count h.nodup_opened]

/-! ### The course of events -/

/-- In the course of some events a call took a step in which its pool passed its test. -/
def PassedIn (events : List Event) (p : Pool) : Prop :=
  ∃ before i reply after, events = before ++ .steps i reply :: after ∧
    (Run.of before).calls[i]? = some (.testing p) ∧ reply.test = .ok ()

theorem PassedIn.concat (h : PassedIn events pool) (e : Event) :
    PassedIn (events ++ [e]) pool := by
  obtain ⟨before, i, reply, after, rfl, htesting, htest⟩ := h
  refine ⟨before, i, reply, after ++ [e], ?_, htesting, htest⟩
  rw [List.append_assoc, List.cons_append]

/-- **What a data source has down as passed did pass its test in some step.** -/
theorem passedIn_of_mem_passed (h : pool ∈ (Run.of events).source.passed) :
    PassedIn events pool := by
  induction events using List.reverseRecOn with
  | nil => cases h
  | append_singleton events e ih =>
      have hfollows := (Run.of events).follows e
      rw [Run.of_concat] at h
      generalize (Run.of events).next e = r' at h hfollows
      cases hfollows with
      | stays | starts => exact (ih h).concat _
      | @moves i reply c c' s hi hmoves =>
          rcases hmoves.mem_passed_iff.mp h with hbefore | ⟨rfl, htest⟩
          · exact (ih hbefore).concat _
          · exact ⟨events, i, reply, [], rfl, hi, htest⟩

/-- A call that is over stays as it is in whatever happens next. -/
theorem Run.Follows.getElem?_of_isOver (h : r.Follows e r') (hi : r.calls[i]? = some c)
    (hover : c.IsOver) : r'.calls[i]? = some c := by
  cases h with
  | stays => exact hi
  | starts =>
      rw [List.getElem?_append_left (List.getElem?_eq_some_iff.mp hi).1]
      exact hi
  | @moves j reply d d' s hj hmoves =>
      by_cases hij : j = i
      · subst hij
        obtain rfl := Option.some.inj (hi.symm.trans hj)
        rw [(hmoves.eq_of_isOver hover).1,
          List.getElem?_set_self (List.getElem?_eq_some_iff.mp hi).1]
      · rw [List.getElem?_set_ne hij]
        exact hi

theorem Run.getElem?_foldl_of_isOver (hi : r.calls[i]? = some c) (hover : c.IsOver)
    (events : List Event) : (events.foldl Run.next r).calls[i]? = some c := by
  induction events generalizing r with
  | nil => exact hi
  | cons e events ih => exact ih ((r.follows e).getElem?_of_isOver hi hover)

/-- **A configure that fails leaves the active pool alone** in each of its steps, whatever
happens between them. -/
theorem Run.active_eq_of_failed {before after : List Event} {f : Failure}
    (h : (Run.of (before ++ .steps i reply :: after)).calls[i]? = some (.configured (.error f))) :
    (Run.of (before ++ [.steps i reply])).source.active = (Run.of before).source.active := by
  have hlast : Run.of (before ++ .steps i reply :: after) =
      after.foldl Run.next ((Run.of before).next (.steps i reply)) := by
    rw [Run.of, List.foldl_append, List.foldl_cons, Run.of]
  have hfollows := (Run.of before).follows (.steps i reply)
  rw [hlast] at h
  rw [Run.of_concat]
  generalize (Run.of before).next (.steps i reply) = r' at h hfollows
  cases hfollows with
  | stays => rfl
  | @moves _ _ c c' s hi hmoves =>
      have hself : (⟨s, (Run.of before).calls.set i c'⟩ : Run).calls[i]? = some c' :=
        List.getElem?_set_self (List.getElem?_eq_some_iff.mp hi).1
      -- A step that changes the active pool ends its call, and not with a failure.
      rcases hmoves.active_cases with hsame | rfl | rfl
      · exact hsame
      · rw [getElem?_foldl_of_isOver hself (.configured _)] at h
        cases h
      · rw [getElem?_foldl_of_isOver hself .closed] at h
        cases h

/-- **Pools in every order of steps.** Whatever calls configure, acquire and close a data source,
in whatever order their steps are taken and whatever the databases say: no pool is opened twice,
and every pool that was opened is in one place, once: held by a configure, active, or handed to
a close. The active pool has passed its test in the step of a call that opened it. A configure
that fails leaves the active pool as it was in each of its steps. -/
theorem Run.pools_accounted (events : List Event) :
    let r := Run.of events
    r.source.opened.Nodup ∧
      (∀ p, r.held.count p + r.source.active.toList.count p + r.source.retired.count p =
        if p ∈ r.source.opened then 1 else 0) ∧
      (∀ p, r.source.active = some p → PassedIn events p) ∧
      ∀ i f before reply after, r.calls[i]? = some (.configured (.error f)) →
        events = before ++ .steps i reply :: after →
        (Run.of (before ++ [.steps i reply])).source.active = (Run.of before).source.active := by
  intro r
  have haccounted := Run.isAccounted events
  refine ⟨haccounted.nodup_opened, haccounted.places_eq, fun p hp => ?_,
    fun i f before reply after hfailed hevents => ?_⟩
  · exact passedIn_of_mem_passed (haccounted.active_passed p hp)
  · subst hevents
    exact Run.active_eq_of_failed hfailed

deriving instance DecidableEq for Call

/-- Two configures overlap. The first one makes its pool the active one; the test of the second
pool fails after that, and it is closed while the first one stays active. -/
theorem Run.pools_accounted_overlapping :
    let b : Backend := { dialect := .sqlite, url := "sqlite::memory:" }
    let willing : Reply := ⟨.ok (), .ok ()⟩
    let failing : Reply := ⟨.ok (), .error (.database "disk I/O error")⟩
    let before : List Event :=
      [.starts (.configuring b), .starts (.configuring b), .steps 0 willing, .steps 1 willing,
        .steps 0 willing, .steps 0 willing]
    let first : Pool := ⟨0, .sqlite⟩
    let second : Pool := ⟨1, .sqlite⟩
    let r := Run.of (before ++ [.steps 1 failing])
    (Run.of before).held = [second] ∧ r.held = [] ∧ r.source.retired = [second] ∧
      r.source.active = some first ∧ (Run.of before).source.active = some first ∧
      PassedIn (before ++ [.steps 1 failing]) first := by
  intro b willing failing before first second
  have hholds : (Run.of before).held = [second] := by decide +kernel
  have hheld : (Run.of (before ++ [.steps 1 failing])).held = [] := by decide +kernel
  have hretired : (Run.of (before ++ [.steps 1 failing])).source.retired = [second] := by
    decide +kernel
  have hactive : (Run.of before).source.active = some first := by decide +kernel
  have hover : (Run.of (before ++ [.steps 1 failing])).calls[1]? =
      some (.configured (.error (untested (.database "disk I/O error")))) := by decide +kernel
  obtain ⟨-, -, hpassed, hfailed⟩ := Run.pools_accounted (before ++ [.steps 1 failing])
  have hsame := hfailed 1 (untested (.database "disk I/O error")) before failing [] hover rfl
  exact ⟨hholds, hheld, hretired, hsame.trans hactive, hactive,
    hpassed first (hsame.trans hactive)⟩

end RealmDirectory.DataSource
