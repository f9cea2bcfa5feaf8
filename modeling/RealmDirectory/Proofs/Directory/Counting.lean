import Mathlib.Data.List.Nodup

/-!
# Counting over lists of calls

Calls that overlap are kept in a list, in which a step replaces one of them. What the calls
have to do with is counted over the whole list, so that a step changes the count by what its
call gains and loses. The things that are counted are numbered as they come up.

## Main results

* `count_flatMap_set`, `count_flatMap_concat`: the count when a call is replaced, and when one
  starts.
* `count_range_le_one`, `count_range_pos_iff`: every number is given out once.
* `mem_set_of_ne`: the other calls stay in the list.
-/

namespace RealmDirectory

section

variable {α β : Type} [BEq β] (f : α → List β) {l : List α} {a : α} {n : Nat}

/-- **When one element is replaced, what it counts for is replaced.** -/
theorem count_flatMap_set (h : l[n]? = some a) (b : α) (m : β) :
    ((l.set n b).flatMap f).count m + (f a).count m = (l.flatMap f).count m + (f b).count m := by
  induction l generalizing n with
  | nil => simp at h
  | cons first l ih =>
      cases n with
      | zero =>
          obtain rfl := Option.some.inj h
          simp only [List.set_cons_zero, List.flatMap_cons, List.count_append]
          omega
      | succ n =>
          have := ih h
          simp only [List.set_cons_succ, List.flatMap_cons, List.count_append]
          omega

theorem count_flatMap_concat (l : List α) (b : α) (m : β) :
    ((l ++ [b]).flatMap f).count m = (l.flatMap f).count m + (f b).count m := by
  rw [List.flatMap_append, List.count_append, List.flatMap_singleton]

/-- An element of a list counts in the whole. -/
theorem count_le_count_flatMap (h : a ∈ l) (m : β) : (f a).count m ≤ (l.flatMap f).count m := by
  obtain ⟨l₁, l₂, rfl⟩ := List.append_of_mem h
  simp only [List.flatMap_append, List.flatMap_cons, List.count_append]
  omega

end

section

variable {m n : Nat}

/-- Numbers are given out one after the other. -/
theorem count_range_succ (m n : Nat) :
    (List.range (n + 1)).count m = (List.range n).count m + [n].count m := by
  rw [List.range_succ, List.count_append]

theorem count_range_le_one (m n : Nat) : (List.range n).count m ≤ 1 :=
  List.nodup_iff_count_le_one.mp List.nodup_range m

theorem count_range_pos_iff : 0 < (List.range n).count m ↔ m < n := by
  rw [List.count_pos_iff, List.mem_range]

end

section

variable {α : Type} {l : List α} {a b : α} {n : Nat}

theorem mem_set_self (hn : l[n]? = some a) (b : α) : b ∈ l.set n b :=
  List.mem_set (List.getElem?_eq_some_iff.mp hn).1 b

theorem mem_set_of_ne (hmem : a ∈ l) {d : α} (hn : l[n]? = some b) (hne : a ≠ b) :
    a ∈ l.set n d := by
  obtain ⟨m, hm⟩ := List.mem_iff_getElem?.mp hmem
  refine List.mem_iff_getElem?.mpr ⟨m, ?_⟩
  rw [List.getElem?_set_ne, hm]
  rintro rfl
  exact hne (Option.some.inj (hm.symm.trans hn))

end

end RealmDirectory
