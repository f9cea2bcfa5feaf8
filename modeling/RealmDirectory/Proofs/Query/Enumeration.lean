import Mathlib.Data.List.Induction
import RealmDirectory.Proofs.Query.Meaning

/-!
# Searches without an order

The keys of a search have no order: they may come one way or another when the search is
compiled, just as they may have been asked for one after the other in any way. What is compiled
does not show it, as long as attributes that one column holds should have one value. Values are
bound to columns in ascending order, so what is bound tells how it is bound.

A search that asks for a mapped attribute is compiled from its mapped attributes alone, and from
whether values are compared as a whole. Its keyword and its other attributes do not matter.

## Main definitions

* `Criteria.BuilderCall`, `Criteria.built`: the calls by which a search is put together.

## Main results

* `Bindings.bindColumns_congr`: lists of the same bindings bind the same.
* `Criteria.get?_built`: a search has what the last call for a key wrote.
* `CompiledQuery.compile_eq_of_same_keys`: searches that are compiled to the same statement with
  the same parameters.
-/

namespace RealmDirectory

/-- **Lists of the same bindings bind the same**, when no column has two values. -/
theorem Bindings.bindColumns_congr {l₁ l₂ : Bindings} (h : Consistent l₁)
    (hmem : ∀ e, e ∈ l₁ ↔ e ∈ l₂) : bindColumns l₁ = bindColumns l₂ := by
  have h₂ : Consistent l₂ := fun column v w hv hw =>
    h column v w ((hmem _).mpr hv) ((hmem _).mpr hw)
  let Before (d e : String × String) : Prop := d.1 < e.1
  have hasymm : Std.Asymm Before := ⟨fun _ _ hlt => lt_asymm hlt⟩
  have hirrefl : Std.Irrefl Before := ⟨fun _ => lt_irrefl _⟩
  have hascending (l : Bindings) : (bindColumns l).Pairwise Before :=
    List.pairwise_map.mp (ascending_bindColumns l)
  exact List.Pairwise.eq_of_mem_iff (hascending l₁) (hascending l₂) fun e =>
    (mem_bindColumns h).trans ((hmem e).trans (mem_bindColumns h₂).symm)

/-- An attribute that has a column is a key of the mapping. -/
theorem ColumnMapping.mem_keys {m : ColumnMapping} {name : String} :
    name ∈ m.keys ↔ ∃ column, m.column name = some column := by
  simp only [KeyedList.keys, List.mem_map, Prod.exists, exists_and_right, exists_eq_right, column,
    KeyedList.get?_eq_some_iff]

namespace Criteria

variable {c c' : Criteria}

/-! ### Calls that put a search together -/

/-- A call by which a search gets a key. -/
inductive BuilderCall where
  | withKeyword (keyword : String)
  | withExact (exact : Bool)
  | withAttribute (name value : String)
  deriving DecidableEq, Repr

namespace BuilderCall

/-- The key that a call writes, with its value. -/
def entry : BuilderCall → String × String
  | withKeyword keyword => (searchKey, keyword)
  | withExact exact => (exactKey, if exact then "true" else "false")
  | withAttribute name value => (name, value)

/-- The search behind a call. -/
def apply (c : Criteria) : BuilderCall → Criteria
  | withKeyword keyword => c.withKeyword keyword
  | withExact exact => c.withExact exact
  | withAttribute name value => c.withAttribute name value

theorem apply_eq (c : Criteria) (call : BuilderCall) :
    call.apply c = c.insert call.entry.1 call.entry.2 := by
  cases call <;> rfl

end BuilderCall

/-- The search that some calls put together, one after the other. -/
def built (calls : List BuilderCall) : Criteria := calls.foldl BuilderCall.apply .empty

/-- What the last of the calls that write a key wrote. -/
def lastWritten (calls : List BuilderCall) (key : String) : Option String :=
  ((calls.map BuilderCall.entry).reverse.find? fun e => e.1 = key).map Prod.snd

/-- **A search has what the last call wrote**, for every key. -/
theorem get?_built (calls : List BuilderCall) (key : String) :
    (built calls).get? key = lastWritten calls key := by
  induction calls using List.reverseRecOn with
  | nil => rfl
  | append_singleton calls call ih =>
      have hsplit : built (calls ++ [call]) = call.apply (built calls) := by
        rw [built, List.foldl_append]
        rfl
      rw [hsplit, BuilderCall.apply_eq, KeyedList.get?_insert, ih, lastWritten, lastWritten,
        List.map_append, List.reverse_append]
      by_cases hkey : key = call.entry.1
      · simp [hkey]
      · have hkey' : ¬ call.entry.1 = key := fun heq => hkey heq.symm
        simp [hkey, hkey']

/-- Calls that write each key once may come in any order. -/
theorem lastWritten_perm {calls calls' : List BuilderCall} (hperm : calls.Perm calls')
    (h : (calls.map fun call => call.entry.1).Nodup) (key : String) :
    lastWritten calls key = lastWritten calls' key := by
  have hnodup {calls : List BuilderCall} (h : (calls.map fun call => call.entry.1).Nodup) :
      ((calls.map BuilderCall.entry).reverse.map Prod.fst).Nodup := by
    rwa [List.map_reverse, List.nodup_reverse, List.map_map]
  have h' := (hperm.map fun call => call.entry.1).nodup_iff.mp h
  refine Option.ext fun v => ?_
  rw [lastWritten, lastWritten, KeyedList.find?_eq_some_iff_mem (hnodup h),
    KeyedList.find?_eq_some_iff_mem (hnodup h'), List.mem_reverse, List.mem_reverse,
    (hperm.map BuilderCall.entry).mem_iff]

/-- Entries may be enumerated in any order. -/
theorem get?_perm (hperm : c.entries.Perm c'.entries) (key : String) :
    c.get? key = c'.get? key := by
  refine Option.ext fun v => ?_
  rw [KeyedList.get?_eq_some_iff, KeyedList.get?_eq_some_iff, hperm.mem_iff]

end Criteria

namespace Selection

open Criteria

variable {m : ColumnMapping} {c c' : Criteria}

/-- Searches for the same mapped attributes select the same. -/
theorem of_eq_of_asks (hagrees : AgreesOn m c) (hattr : c.HasAttribute) (hattr' : c'.HasAttribute)
    (h : ∀ name ∈ m.keys, ∀ value, c.Asks name value ↔ c'.Asks name value) :
    of m c = of m c' := by
  cases hm : m.isEmpty with
  | true => rw [of_isEmpty hm, of_isEmpty hm]
  | false =>
      have hmem (e : String × String) : e ∈ attributeBindings m c ↔ e ∈ attributeBindings m c' := by
        obtain ⟨column, value⟩ := e
        rw [mem_attributeBindings, mem_attributeBindings]
        refine exists_congr fun name => and_congr_left fun hcolumn => ?_
        exact h name (ColumnMapping.mem_keys.mpr ⟨column, hcolumn⟩) value
      rw [of_attributes hm hattr, of_attributes hm hattr',
        Bindings.bindColumns_congr (consistent_attributeBindings hagrees) hmem]

/-- Searches with the same keys select the same. -/
theorem of_eq_of_get? (hagrees : AgreesOn m c) (h : ∀ key, c.get? key = c'.get? key) :
    of m c = of m c' := by
  have hasks (name value : String) : c.Asks name value ↔ c'.Asks name value := by
    rw [Asks, Asks, h]
  have hattr : c.HasAttribute ↔ c'.HasAttribute := by
    simp only [HasAttribute, hasks]
  cases hm : m.isEmpty with
  | true => rw [of_isEmpty hm, of_isEmpty hm]
  | false =>
      rcases c.asks_cases with hc | ⟨keyword, hc⟩ | hc
      · exact of_eq_of_asks hagrees hc (hattr.mp hc) fun name _ => hasks name
      · have hc' : c'.SeeksKeyword keyword := by rwa [SeeksKeyword, ← hattr, ← h]
        rw [of_keyword hm hc, of_keyword hm hc']
      · have hc' : c'.SeeksNothing := by simpa only [SeeksNothing, hattr, h] using hc
        rw [of_seeksNothing hc, of_seeksNothing hc']

end Selection

namespace CompiledQuery

open Criteria

variable {m : ColumnMapping} {c c' : Criteria}

/-- A search is compiled from what it selects and from how it compares. -/
theorem compile_congr (template : String) (hof : Selection.of m c = Selection.of m c')
    (hexact : c.isExact = c'.isExact) : compile template m c = compile template m c' := by
  rw [compile, compile, hof, hexact]

/-- Searches with the same keys are compiled alike. -/
theorem compile_eq_of_get? (template : String) (hagrees : AgreesOn m c)
    (h : ∀ key, c.get? key = c'.get? key) : compile template m c = compile template m c' := by
  have hexact : c.isExact = c'.isExact := by rw [isExact, isExact, h]
  exact compile_congr template (Selection.of_eq_of_get? hagrees h) hexact

/-- **Searches that are compiled alike**, when attributes of one column should have one value:
searches whose entries are enumerated in two orders, searches that are put together by the same
calls in two orders, or by any calls of which the last ones wrote the same, and searches for the
same mapped attributes, of which there is one. The latter may have any other attributes and any
keyword. -/
theorem compile_eq_of_same_keys (template : String) (m : ColumnMapping) :
    (∀ c c' : Criteria, AgreesOn m c → c.entries.Perm c'.entries →
        compile template m c = compile template m c') ∧
      (∀ calls calls' : List BuilderCall, AgreesOn m (built calls) → calls.Perm calls' →
        (calls.map fun call => call.entry.1).Nodup →
        compile template m (built calls) = compile template m (built calls')) ∧
      (∀ calls calls' : List BuilderCall, AgreesOn m (built calls) →
        (∀ key, lastWritten calls key = lastWritten calls' key) →
        compile template m (built calls) = compile template m (built calls')) ∧
      ∀ c c' : Criteria, AgreesOn m c →
        (∀ name ∈ m.keys, isControl name = false → c.get? name = c'.get? name) →
        c.isExact = c'.isExact →
        (∃ name ∈ m.keys, isControl name = false ∧ c.contains name = true) →
        compile template m c = compile template m c' := by
  have hcalls (calls calls' : List BuilderCall) (hagrees : AgreesOn m (built calls))
      (hlast : ∀ key, lastWritten calls key = lastWritten calls' key) :
      compile template m (built calls) = compile template m (built calls') := by
    refine compile_eq_of_get? template hagrees fun key => ?_
    rw [get?_built, get?_built, hlast]
  refine ⟨fun c c' hagrees hperm => ?_, fun calls calls' hagrees hperm hkeys => ?_, hcalls,
    fun c c' hagrees hsame hexact hsome => ?_⟩
  · exact compile_eq_of_get? template hagrees (get?_perm hperm)
  · exact hcalls calls calls' hagrees (lastWritten_perm hperm hkeys)
  · obtain ⟨name, hname, hcontrol, hcontains⟩ := hsome
    obtain ⟨value, hvalue⟩ := Option.isSome_iff_exists.mp hcontains
    have hasks (name : String) (hname : name ∈ m.keys) (value : String) :
        c.Asks name value ↔ c'.Asks name value :=
      and_congr_left fun hkey => by rw [hsame name hname (isControl_eq_false_iff.mpr hkey)]
    have hattr : c.Asks name value := ⟨hvalue, isControl_eq_false_iff.mp hcontrol⟩
    exact compile_congr template (Selection.of_eq_of_asks hagrees ⟨name, value, hattr⟩
      ⟨name, value, (hasks name hname value).mp hattr⟩ hasks) hexact

/-- Two attributes of one column, asked for in two orders, then after a value that is overwritten,
and then with another keyword and with an attribute that no column holds. -/
theorem compile_eq_of_same_keys_shared_column :
    let template := "select login from users where {filters}"
    let m := ColumnMapping.parse ["email=mail", "login=mail", "name=full_name"]
    let calls : List BuilderCall :=
      [.withAttribute "email" "a", .withExact true, .withAttribute "name" "b",
        .withAttribute "login" "a", .withKeyword "c"]
    let other : Criteria := ((built calls).withAttribute "city" "d").withKeyword "*"
    let swapped : Criteria := KeyedList.ofList (built calls).entries.reverse
    let repeated : List BuilderCall := .withAttribute "name" "a" :: calls.reverse
    (AgreesOn m (built calls) ∧ (built calls).entries.Perm swapped.entries ∧
        calls.Perm calls.reverse ∧ (calls.map fun call => call.entry.1).Nodup ∧
        (∀ key, lastWritten calls key = lastWritten repeated key) ∧
        (∀ name ∈ m.keys, isControl name = false →
          (built calls).get? name = other.get? name) ∧
        (built calls).isExact = other.isExact ∧
        ∃ name ∈ m.keys, isControl name = false ∧ (built calls).contains name = true) ∧
      compile template m (built calls) = compile template m swapped ∧
      compile template m (built calls) = compile template m (built calls.reverse) ∧
      compile template m (built calls) = compile template m (built repeated) ∧
      compile template m (built calls) = compile template m other ∧
      compile template m other =
        ⟨"select login from users where  UPPER(full_name) = ?  AND UPPER(mail) = ?  ",
          some ["b", "a"]⟩ := by
  intro template m calls other swapped repeated
  have hagrees : AgreesOn m (built calls) := by decide
  have hentries : (built calls).entries.Perm swapped.entries := by decide
  have hcalls : calls.Perm calls.reverse := (List.reverse_perm calls).symm
  have hkeys : (calls.map fun call => call.entry.1).Nodup := by decide
  have hlast (key : String) : lastWritten calls key = lastWritten repeated key := by
    rw [lastWritten_perm hcalls hkeys key]
    by_cases hkey : key = "name"
    · subst hkey
      decide
    · have hother : ¬ "name" = key := fun heq => hkey heq.symm
      simp [lastWritten, repeated, BuilderCall.entry, List.find?_append, hother]
  have hsame : ∀ name ∈ m.keys, isControl name = false →
      (built calls).get? name = other.get? name := by decide
  have hexact : (built calls).isExact = other.isExact := by decide
  have hsome : ∃ name ∈ m.keys, isControl name = false ∧ (built calls).contains name = true := by
    decide
  obtain ⟨horder, hbuilt, hwritten, hmapped⟩ := compile_eq_of_same_keys template m
  have hother := hmapped (built calls) other hagrees hsame hexact hsome
  exact ⟨⟨hagrees, hentries, hcalls, hkeys, hlast, hsame, hexact, hsome⟩,
    horder _ swapped hagrees hentries, hbuilt calls _ hagrees hcalls hkeys,
    hwritten calls repeated hagrees hlast, hother, by decide +kernel⟩

/-- Attributes of one column that should have two values show the order in which they come: the
last one wins. -/
example :
    let template := "select login from users where {filters}"
    let m := ColumnMapping.parse ["email=mail", "login=mail"]
    let calls : List BuilderCall := [.withAttribute "email" "a", .withAttribute "login" "b"]
    (compile template m (built calls)).params = some ["%B%"] ∧
      (compile template m (built calls.reverse)).params = some ["%A%"] := by
  decide +kernel

end CompiledQuery

end RealmDirectory
