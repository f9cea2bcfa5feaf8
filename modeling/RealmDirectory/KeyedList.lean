/-!
# Keyed lists

A `KeyedList α β` pairs each key with one value and remembers the order in which the
keys were first written. Column mappings, search criteria, realm tables and decoded
request fields are all keyed lists: looking a key up, writing it and removing it are
the only operations, and every one keeps the keys pairwise different.

## Main definitions

* `KeyedList.insert`: the last value written for a key wins, its first position stays.
* `KeyedList.ofList`: the entries of a list, written from left to right.
* `KeyedList.get?`, `KeyedList.erase`: looking a key up and removing it.
-/

namespace RealmDirectory

/-- Pairs of a key and a value in the order in which the keys were first written. -/
structure KeyedList (α β : Type) where
  /-- The pairs, oldest key first. -/
  entries : List (α × β)
  /-- No key occurs twice. -/
  keys_nodup : (entries.map Prod.fst).Nodup

namespace KeyedList

variable {α β : Type}

/-- The keyed list without entries. -/
def empty : KeyedList α β := ⟨[], List.nodup_nil⟩

instance : Inhabited (KeyedList α β) := ⟨empty⟩

/-- The keys, oldest first. -/
def keys (t : KeyedList α β) : List α := t.entries.map Prod.fst

/-- The number of keys. -/
def size (t : KeyedList α β) : Nat := t.entries.length

/-- Whether no key was written. -/
def isEmpty (t : KeyedList α β) : Bool := t.entries.isEmpty

variable [DecidableEq α]

/-- Writes one pair into a list of pairs: a present key keeps its place. -/
def insertEntry (k : α) (v : β) : List (α × β) → List (α × β)
  | [] => [(k, v)]
  | (k', v') :: r => if k' = k then (k, v) :: r else (k', v') :: insertEntry k v r

theorem map_fst_insertEntry (k : α) (v : β) (l : List (α × β)) :
    (insertEntry k v l).map Prod.fst =
      if k ∈ l.map Prod.fst then l.map Prod.fst else l.map Prod.fst ++ [k] := by
  induction l with
  | nil => simp [insertEntry]
  | cons p r ih =>
      obtain ⟨k', v'⟩ := p
      by_cases h : k' = k
      · simp [insertEntry, h]
      · have h' : ¬ k = k' := fun e => h e.symm
        by_cases hm : k ∈ r.map Prod.fst
        · rw [if_pos hm] at ih
          rw [if_pos (by simpa using Or.inr hm)]
          simp [insertEntry, h, ih]
        · rw [if_neg hm] at ih
          rw [if_neg (by simpa [h'] using hm)]
          simp [insertEntry, h, ih]

/-- Writes a key: its last value wins and its first position stays. -/
def insert (t : KeyedList α β) (k : α) (v : β) : KeyedList α β where
  entries := insertEntry k v t.entries
  keys_nodup := by
    rw [map_fst_insertEntry]
    split
    · exact t.keys_nodup
    · next h =>
        refine List.nodup_append.2 ⟨t.keys_nodup, by simp, ?_⟩
        intro a ha b hb
        rw [List.mem_singleton.1 hb]
        exact fun e => h (e ▸ ha)

/-- The entries of a list, written from left to right. -/
def ofList (l : List (α × β)) : KeyedList α β :=
  l.foldl (fun t p => t.insert p.1 p.2) empty

/-- The value of a key, if it was written. -/
def get? (t : KeyedList α β) (k : α) : Option β :=
  (t.entries.find? fun p => p.1 = k).map Prod.snd

theorem find?_eq_some_iff_mem {l : List (α × β)} (hl : (l.map Prod.fst).Nodup) {k : α}
    {v : β} : (l.find? fun p => p.1 = k).map Prod.snd = some v ↔ (k, v) ∈ l := by
  induction l with
  | nil => simp
  | cons p r ih =>
      obtain ⟨k', v'⟩ := p
      rw [List.map_cons, List.nodup_cons] at hl
      by_cases h : k' = k
      · subst h
        have hr : (k', v) ∉ r := fun hv => hl.1 (List.mem_map.2 ⟨_, hv, rfl⟩)
        simp [hr, eq_comm]
      · have h' : ¬ k = k' := fun e => h e.symm
        simpa [h, h'] using ih hl.2

/-- Looking a key up finds the entry that was written for it. -/
theorem get?_eq_some_iff {t : KeyedList α β} {k : α} {v : β} :
    t.get? k = some v ↔ (k, v) ∈ t.entries :=
  find?_eq_some_iff_mem t.keys_nodup

theorem find?_insertEntry (k k' : α) (v : β) (l : List (α × β)) :
    ((insertEntry k v l).find? fun p => p.1 = k').map Prod.snd =
      if k' = k then some v else (l.find? fun p => p.1 = k').map Prod.snd := by
  induction l with
  | nil =>
      by_cases h : k' = k
      · simp [insertEntry, h]
      · have h' : ¬ k = k' := fun e => h e.symm
        simp [insertEntry, h, h']
  | cons p r ih =>
      obtain ⟨a, b⟩ := p
      by_cases ha : a = k
      · by_cases h : k' = k
        · simp [insertEntry, ha, h]
        · have h' : ¬ k = k' := fun e => h e.symm
          simp [insertEntry, ha, h, h']
      · by_cases hak : a = k'
        · subst hak
          simp [insertEntry, ha]
        · simpa [insertEntry, ha, hak] using ih

/-- A key that was written has its last value, and the other keys keep theirs. -/
theorem get?_insert (t : KeyedList α β) (k k' : α) (v : β) :
    (t.insert k v).get? k' = if k' = k then some v else t.get? k' :=
  find?_insertEntry k k' v t.entries

theorem count_insertEntry [DecidableEq β] (k : α) (v w : β) (l : List (α × β)) :
    ((insertEntry k v l).map Prod.snd).count w +
        ((l.find? fun p => p.1 = k).map Prod.snd).toList.count w =
      (l.map Prod.snd).count w + [v].count w := by
  induction l with
  | nil => simp [insertEntry]
  | cons p r ih =>
      obtain ⟨k', v'⟩ := p
      by_cases h : k' = k
      · simp only [insertEntry, h, if_true, List.map_cons, List.find?_cons, decide_true,
          Option.map_some, Option.toList_some, List.count_cons, List.count_nil]
        omega
      · simp only [insertEntry, h, if_false, List.map_cons, List.find?_cons, decide_false,
          List.count_cons] at ih ⊢
        omega

/-- The value that is written takes the place of the one that its key had, if it had one. -/
theorem count_insert [DecidableEq β] (t : KeyedList α β) (k : α) (v w : β) :
    ((t.insert k v).entries.map Prod.snd).count w + (t.get? k).toList.count w =
      (t.entries.map Prod.snd).count w + [v].count w :=
  count_insertEntry k v w t.entries

/-- Whether a key was written. -/
def contains (t : KeyedList α β) (k : α) : Bool := (t.get? k).isSome

/-- Removes a key and its value. -/
def erase (t : KeyedList α β) (k : α) : KeyedList α β where
  entries := t.entries.filter fun p => p.1 ≠ k
  keys_nodup := (List.filter_sublist.map Prod.fst).nodup t.keys_nodup

end KeyedList

end RealmDirectory
