/-!
# Readers in steps

Most readers go step by step, and the first step that fails ends them. What such a reader gives is
known from its steps: each of them has succeeded.

## Main results

* `exists_of_bind_ok`: what the first step of a reader gave.
* `mapM_map_eq_pure`: texts that are read back one by one.
* `exists_of_mem_of_mapM`: a list is read only if each item is.
-/

namespace RealmDirectory

variable {α β ε : Type}

/-- The result of a first step that is followed by others. -/
theorem exists_of_bind_ok {x : Except ε α} {f : α → Except ε β} {b : β}
    (h : x >>= f = .ok b) : ∃ a, x = .ok a ∧ f a = .ok b := by
  cases x with
  | error e => cases h
  | ok a => exact ⟨a, rfl, h⟩

/-- What the result of a step was made from. -/
theorem exists_of_map_eq_ok {x : Except ε α} {f : α → β} {b : β} (h : x.map f = .ok b) :
    ∃ a, x = .ok a ∧ f a = b := by
  cases x with
  | error e => cases h
  | ok a => exact ⟨a, rfl, Except.ok.inj h⟩

/-- Behind a step that succeeds, its result is gone on with. -/
theorem ok_bind (a : α) (f : α → Except ε β) : (Except.ok a >>= f) = f a := rfl

theorem error_ne_ok {e : ε} {a : α} : (Except.error e : Except ε α) ≠ .ok a := by
  intro h
  cases h

/-- **Texts that are read back one by one** are read back together. -/
theorem mapM_map_eq_pure {m : Type → Type} [Monad m] [LawfulMonad m] {f : α → β} {g : β → m α}
    {l : List α} (h : ∀ x ∈ l, g (f x) = pure x) : (l.map f).mapM g = pure l := by
  induction l with
  | nil => rw [List.map_nil, List.mapM_nil]
  | cons x l ih =>
      rw [List.map_cons, List.mapM_cons, h x List.mem_cons_self,
        ih fun y hy => h y (List.mem_cons_of_mem x hy), pure_bind, pure_bind]

/-- A list is read item by item only if each item is read. -/
theorem exists_of_mem_of_mapM {f : α → Option β} {l : List α} {r : List β}
    (h : l.mapM f = some r) {a : α} (ha : a ∈ l) : ∃ b, f a = some b := by
  induction l generalizing r with
  | nil => cases ha
  | cons x l ih =>
      rw [List.mapM_cons] at h
      obtain ⟨b, hb, h⟩ := Option.bind_eq_some_iff.mp h
      obtain ⟨s, hs, -⟩ := Option.bind_eq_some_iff.mp h
      rcases List.mem_cons.mp ha with rfl | ha
      · exact ⟨b, hb⟩
      · exact ih hs ha

end RealmDirectory
