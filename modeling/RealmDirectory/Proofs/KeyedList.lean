import Mathlib.Data.List.Induction
import RealmDirectory.KeyedList

/-!
# Keyed lists that are written from left to right

Of the pairs that are written for one key, the last one stays, in the place of the first one. So
pairs whose keys are all different are simply kept, and a keyed list comes back when its own pairs
are written.

## Main results

* `KeyedList.eq_of_keys_eq`: keyed lists are the same when they have the same keys and values.
* `KeyedList.ofList_concat`, `KeyedList.keys_insert`: one more pair is written.
* `KeyedList.entries_ofList`: pairs with different keys are kept as they are.
* `KeyedList.ofList_entries`: a keyed list is what its pairs make.
-/

namespace RealmDirectory.KeyedList

variable {α β : Type}

/-- Keyed lists with the same pairs in the same order are the same. -/
theorem eq_of_entries_eq {t t' : KeyedList α β} (h : t.entries = t'.entries) : t = t' := by
  cases t
  cases t'
  cases h
  rfl

variable [DecidableEq α]

/-- **Keyed lists with the same keys in the same order** and the same values are the same. -/
theorem eq_of_keys_eq {t t' : KeyedList α β} (hkeys : t.keys = t'.keys)
    (hget : ∀ k, t.get? k = t'.get? k) : t = t' := by
  refine eq_of_entries_eq (List.ext_getElem ?_ fun i hi hi' => ?_)
  · have hlength := congrArg List.length hkeys
    simpa only [keys, List.length_map] using hlength
  · have hkey : (t.entries[i]).1 = (t'.entries[i]).1 := by
      have h := List.getElem_of_eq hkeys (by simpa [keys] using hi)
      simpa only [keys, List.getElem_map] using h
    have hvalue : t.get? t.entries[i].1 = some t.entries[i].2 :=
      get?_eq_some_iff.mpr (List.getElem_mem hi)
    have hvalue' : t'.get? t'.entries[i].1 = some t'.entries[i].2 :=
      get?_eq_some_iff.mpr (List.getElem_mem hi')
    rw [hget, hkey, hvalue'] at hvalue
    exact Prod.ext hkey (Option.some.inj hvalue).symm

theorem ofList_concat (l : List (α × β)) (p : α × β) :
    ofList (l ++ [p]) = (ofList l).insert p.1 p.2 := by
  rw [ofList, List.foldl_append]
  rfl

/-- A new key comes last, and the others keep their places. -/
theorem keys_insert (t : KeyedList α β) (k : α) (v : β) :
    (t.insert k v).keys = if k ∈ t.keys then t.keys else t.keys ++ [k] :=
  map_fst_insertEntry k v t.entries

theorem mem_keys_iff {t : KeyedList α β} {k : α} : k ∈ t.keys ↔ ∃ v, t.get? k = some v := by
  simp only [keys, List.mem_map, Prod.exists, exists_and_right, exists_eq_right, get?_eq_some_iff]

theorem insertEntry_of_notMem {k : α} (v : β) {l : List (α × β)} (h : k ∉ l.map Prod.fst) :
    insertEntry k v l = l ++ [(k, v)] := by
  induction l with
  | nil => rfl
  | cons p r ih =>
      rw [List.map_cons, List.mem_cons, not_or] at h
      rw [insertEntry, if_neg (Ne.symm h.1), ih h.2, List.cons_append]

/-- A new pair comes last. -/
theorem entries_insert_of_notMem {t : KeyedList α β} {k : α} (h : k ∉ t.keys) (v : β) :
    (t.insert k v).entries = t.entries ++ [(k, v)] :=
  insertEntry_of_notMem v h

/-- **Pairs with different keys are kept as they are.** -/
theorem entries_ofList {l : List (α × β)} (h : (l.map Prod.fst).Nodup) :
    (ofList l).entries = l := by
  induction l using List.reverseRecOn with
  | nil => rfl
  | append_singleton r p ih =>
      rw [List.map_append, List.nodup_append] at h
      have hr : (ofList r).entries = r := ih h.1
      have hnew : p.1 ∉ (ofList r).keys := by
        rw [keys, hr]
        exact fun hmem => h.2.2 _ hmem p.1 (by simp) rfl
      rw [ofList_concat, entries_insert_of_notMem hnew, hr]

/-- **A keyed list is what its pairs make.** -/
theorem ofList_entries (t : KeyedList α β) : ofList t.entries = t :=
  eq_of_entries_eq (entries_ofList t.keys_nodup)

end RealmDirectory.KeyedList
