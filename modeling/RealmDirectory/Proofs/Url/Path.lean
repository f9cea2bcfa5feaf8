import RealmDirectory.Proofs.Text.Splitting
import RealmDirectory.Proofs.Url.Encoding
import RealmDirectory.Url.Basic

/-!
# Paths, read back

Reading a path resolves its dot segments and encodes the other ones. The path that comes out has
segments that hold no slash, need no encoding and are no dots, and reading leaves such a path as it
is. For that, encoding a segment must not make dots of it, although a dot may be percent-encoded: no
character that a path encodes is a dot.

## Main definitions

* `IsSegment`, `IsWrittenPath`: the segments and the paths that reading leaves.

## Main results

* `dots?_of_encode`: encoding makes no dots.
* `isWrittenPath_parsePath`: what is read is such a path.
* `parsePath_eq_self`: such a path is read as it is.
-/

namespace RealmDirectory.Url

variable {known : Bool} {s : List Char}

/-! ### Dots -/

/-- A segment that has nothing but dots is empty, or begins with a dot that may be encoded. -/
theorem dots?_eq_some {n : Nat} (h : dots? s = some n) :
    (s = [] ∧ n = 0) ∨ (∃ r m, s = '.' :: r ∧ dots? r = some m ∧ n = m + 1) ∨
      ∃ e r m, s = '%' :: '2' :: e :: r ∧ (e = 'e' ∨ e = 'E') ∧ dots? r = some m ∧ n = m + 1 := by
  unfold dots? at h
  split at h
  · exact .inl ⟨rfl, (Option.some.inj h).symm⟩
  · next r =>
      obtain ⟨m, hm, rfl⟩ := Option.map_eq_some_iff.mp h
      exact .inr (.inl ⟨r, m, rfl, hm, rfl⟩)
  · next e r =>
      split at h
      · next he =>
          obtain ⟨m, hm, rfl⟩ := Option.map_eq_some_iff.mp h
          exact .inr (.inr ⟨e, r, m, rfl, he, hm, rfl⟩)
      · cases h
  · cases h

/-- The encoding of a dot is that of no other character. -/
theorem eq_dot_of_encodeByte {c : Char} {b : UInt8} (hb : b ∈ String.utf8EncodeChar c)
    (hhigh : Percent.upperDigit (b.toNat / 16) = '2')
    (hlow : Percent.upperDigit (b.toNat % 16) = 'e' ∨ Percent.upperDigit (b.toNat % 16) = 'E') :
    c = '.' := by
  obtain ⟨hhi, hlo⟩ := Percent.hexValue?_encodeByte b
  have hhi : b.toNat / 16 = 2 := by
    rw [hhigh] at hhi
    exact (Option.some.inj hhi).symm
  have hlo : b.toNat % 16 = 14 := by
    rcases hlow with hlow | hlow <;> rw [hlow] at hlo <;> exact (Option.some.inj hlo).symm
  have hvalue : b.toNat = '.'.toNat := by
    change b.toNat = 46
    omega
  rcases Text.utf8EncodeChar_cases c with ⟨hc, heq⟩ | houtside
  · rw [heq, List.mem_singleton] at hb
    rw [hb, Text.toNat_toUInt8_of_lt hc] at hvalue
    exact Char.toNat_inj.mp hvalue
  · have hlarge := houtside b hb
    rw [hvalue] at hlarge
    exact absurd hlarge (by decide)

/-- **Encoding makes no dots** of a segment that has other characters. -/
theorem dots?_of_encode {n : Nat} (h : dots? (Percent.encode Percent.inPath s) = some n) :
    dots? s = some n := by
  induction hn : s.length using Nat.strongRecOn generalizing s n with
  | _ k ih =>
      rcases dots?_eq_some h with ⟨hnil, rfl⟩ | ⟨t, m, heq, ht, rfl⟩ | ⟨e, t, m, heq, he, ht, rfl⟩
      · by_cases hs : s = []
        · rw [hs]
          rfl
        · exact absurd hnil (Percent.encode_ne_nil hs)
      · obtain ⟨r, rfl, rfl⟩ := Percent.exists_eq_cons_of_encode heq (by decide)
        rw [dots?, ih r.length (by rw [← hn]; simp) ht rfl]
        rfl
      · cases s with
        | nil => cases heq
        | cons c r =>
            cases hc : Percent.inPath c with
            | true =>
                -- An encoding of a dot would be that of a character that needs none.
                obtain ⟨b, bytes, hbytes⟩ : ∃ b bytes, String.utf8EncodeChar c = b :: bytes :=
                  List.exists_cons_of_ne_nil String.utf8EncodeChar_ne_nil
                rw [Percent.encode_cons_of_mem hc, hbytes, List.flatMap_cons,
                  Percent.encodeByte_eq] at heq
                obtain ⟨-, hrest⟩ := List.cons.inj heq
                obtain ⟨hhigh, hrest⟩ := List.cons.inj hrest
                obtain ⟨rfl, -⟩ := List.cons.inj hrest
                obtain rfl := eq_dot_of_encodeByte (hbytes ▸ List.mem_cons_self) hhigh he
                cases hc
            | false =>
                rw [Percent.encode_cons_of_notMem hc] at heq
                obtain ⟨rfl, hrest⟩ := List.cons.inj heq
                obtain ⟨r, rfl, hafter⟩ := Percent.exists_eq_cons_of_encode hrest (by decide)
                have hpercent : e ≠ '%' := by rintro rfl; cases he <;> contradiction
                obtain ⟨r, rfl, rfl⟩ := Percent.exists_eq_cons_of_encode hafter.symm hpercent
                rw [dots?, if_pos he, ih r.length (by rw [← hn]; simp; omega) ht rfl]
                rfl

/-! ### Segments -/

/-- A segment between slashes; `known` tells whether backslashes are slashes. -/
structure IsBetweenSlashes (known : Bool) (s : List Char) : Prop where
  slash : '/' ∉ s
  backslash : known = true → '\\' ∉ s

/-- A segment that reading leaves. -/
structure IsSegment (known : Bool) (s : List Char) : Prop extends IsBetweenSlashes known s where
  encoded : ∀ c ∈ s, Percent.inPath c = false
  noDot : dots? s ≠ some 1
  noDots : dots? s ≠ some 2

theorem isSegment_nil (known : Bool) : IsSegment known [] where
  slash := List.not_mem_nil
  backslash _ := List.not_mem_nil
  encoded := fun _ hc => nomatch hc
  noDot := by decide
  noDots := by decide

/-- Encoding leaves a segment that is no dot segment. -/
theorem IsBetweenSlashes.encode (h : IsBetweenSlashes known s) (hdot : dots? s ≠ some 1)
    (hdots : dots? s ≠ some 2) : IsSegment known (Percent.encode Percent.inPath s) where
  slash hc := by
    rcases Percent.mem_encode hc with ⟨hmem, -⟩ | heq | hhex
    · exact h.slash hmem
    · cases heq
    · cases hhex
  backslash hknown hc := by
    rcases Percent.mem_encode hc with ⟨hmem, -⟩ | heq | hhex
    · exact h.backslash hknown hmem
    · cases heq
    · cases hhex
  encoded _ hc := Percent.eq_false_of_mem_encode Percent.isSet_inPath hc
  noDot h := hdot (dots?_of_encode h)
  noDots h := hdots (dots?_of_encode h)

/-- The segments of a path are what stands between its slashes. -/
theorem isBetweenSlashes_of_mem_splitPath {segment : List Char}
    (h : segment ∈ splitPath known s) : IsBetweenSlashes known segment := by
  obtain ⟨hslash, hmem⟩ := Text.mem_of_mem_splitOn h
  refine ⟨hslash, fun hknown hc => ?_⟩
  rw [hknown, if_pos rfl] at hmem
  obtain ⟨c, -, hback⟩ := List.mem_map.mp (hmem _ hc)
  split at hback <;> cases hback
  next hne => exact hne rfl

/-! ### Resolving -/

theorem mem_of_mem_dropSegment {done : List (List Char)} {segment : List Char}
    (h : segment ∈ dropSegment done) : segment ∈ done := by
  rw [dropSegment] at h
  split at h
  · split at h
    · exact h
    · exact List.dropLast_subset done h
  · cases h

/-- One more segment, and all that are done are segments. -/
theorem forall_mem_concat {done : List (List Char)} (hdone : ∀ t ∈ done, IsSegment known t)
    (hs : IsSegment known s) : ∀ t ∈ done ++ [s], IsSegment known t := by
  intro t ht
  rcases List.mem_append.mp ht with ht | ht
  · exact hdone t ht
  · exact List.mem_singleton.mp ht ▸ hs

/-- One step of resolving leaves segments, and the last one adds one. -/
theorem exists_resolveFrom_cons {done r : List (List Char)}
    (hdone : ∀ t ∈ done, IsSegment known t) (hs : IsBetweenSlashes known s) :
    ∃ next, resolveFrom done (s :: r) = resolveFrom next r ∧
      (∀ t ∈ next, IsSegment known t) ∧ (r = [] → next ≠ []) := by
  have hdropped : ∀ t ∈ dropSegment done, IsSegment known t := fun t ht =>
    hdone t (mem_of_mem_dropSegment ht)
  refine ⟨_, rfl, ?_, ?_⟩
  · split
    · split
      · exact forall_mem_concat hdone (isSegment_nil known)
      · exact hdone
    · split
      · exact forall_mem_concat hdropped (isSegment_nil known)
      · exact hdropped
    · next hdot hdots => exact forall_mem_concat hdone (hs.encode hdot hdots)
  · rintro rfl
    split <;> simp

/-- Resolving leaves segments, and at least one. The induction is on the segments that are to be
resolved; those that are done are segments already. -/
theorem isSegment_resolveFrom {done segments : List (List Char)}
    (hdone : ∀ t ∈ done, IsSegment known t) (h : ∀ t ∈ segments, IsBetweenSlashes known t) :
    (∀ t ∈ resolveFrom done segments, IsSegment known t) ∧
      (segments ≠ [] → resolveFrom done segments ≠ []) := by
  induction segments generalizing done with
  | nil => exact ⟨hdone, fun hne => absurd rfl hne⟩
  | cons s segments ih =>
      obtain ⟨next, heq, hnext, hlast⟩ :=
        exists_resolveFrom_cons (r := segments) hdone (h s List.mem_cons_self)
      obtain ⟨hsegments, hne⟩ := ih hnext fun t ht => h t (List.mem_cons_of_mem s ht)
      rw [heq]
      refine ⟨hsegments, fun _ => ?_⟩
      cases segments with
      | nil => exact hlast rfl
      | cons t segments => exact hne (List.cons_ne_nil t segments)

/-- Segments are not resolved any further. -/
theorem resolveFrom_eq_append {done segments : List (List Char)}
    (h : ∀ t ∈ segments, IsSegment known t) : resolveFrom done segments = done ++ segments := by
  induction segments generalizing done with
  | nil => rw [resolveFrom, List.append_nil]
  | cons s segments ih =>
      have hs := h s List.mem_cons_self
      rw [resolveFrom]
      split
      · next hdot => exact absurd hdot hs.noDot
      · next hdots => exact absurd hdots hs.noDots
      · rw [ih fun t ht => h t (List.mem_cons_of_mem s ht), Percent.encode_eq_self hs.encoded,
          List.append_assoc, List.singleton_append]

/-! ### Paths -/

/-- The text of segments, each behind a slash. -/
def slashed (segments : List (List Char)) : List Char := segments.flatMap fun s => '/' :: s

/-- The paths that reading leaves: none, unless browsers know the scheme, or segments. -/
def IsWrittenPath (known : Bool) (path : List Char) : Prop :=
  (path = [] ∧ known = false) ∨
    ∃ segments, segments ≠ [] ∧ (∀ s ∈ segments, IsSegment known s) ∧ path = slashed segments

/-- Segments behind slashes are what stands between slashes behind an empty one. -/
theorem intercalate_cons_eq (s : List Char) (segments : List (List Char)) :
    ['/'].intercalate (s :: segments) = s ++ slashed segments := by
  induction segments generalizing s with
  | nil => rw [List.intercalate_singleton, slashed, List.flatMap_nil, List.append_nil]
  | cons t segments ih =>
      rw [List.intercalate_cons_cons, ih, List.append_assoc]
      rfl

/-- A path is split into its segments. -/
theorem splitPath_slashed {segments : List (List Char)} (h : ∀ s ∈ segments, IsSegment known s) :
    splitPath known (slashed segments) = [] :: segments := by
  have hsplit : Text.splitOn '/' (slashed segments) = [] :: segments := by
    have heq := intercalate_cons_eq [] segments
    rw [List.nil_append] at heq
    rw [← heq]
    refine Text.splitOn_intercalate (List.cons_ne_nil _ _) fun s hs => ?_
    rcases List.mem_cons.mp hs with rfl | hs
    · exact List.not_mem_nil
    · exact (h s hs).slash
  cases known with
  | false => exact hsplit
  | true =>
      have hback : '\\' ∉ slashed segments := by
        intro hmem
        obtain ⟨s, hs, hc⟩ := List.mem_flatMap.mp hmem
        rcases List.mem_cons.mp hc with heq | hc
        · cases heq
        · exact (h s hs).backslash rfl hc
      have hmap : (slashed segments).map (fun c => if c = '\\' then '/' else c) =
          slashed segments :=
        (List.map_congr_left fun c hc => if_neg fun heq : c = '\\' => hback (heq ▸ hc)).trans
          (List.map_id _)
      rw [splitPath, if_pos rfl, hmap, hsplit]

/-- **Such a path is read as it is.** -/
theorem parsePath_eq_self (h : IsWrittenPath known s) : parsePath known s = String.ofList s := by
  rcases h with ⟨rfl, rfl⟩ | ⟨segments, hne, hsegments, rfl⟩
  · rfl
  · have hfull : (slashed segments).isEmpty = false := by
      obtain ⟨s, r, rfl⟩ := List.exists_cons_of_ne_nil hne
      rfl
    rw [parsePath, hfull, if_neg Bool.false_ne_true, splitPath_slashed hsegments]
    simp only [resolveFrom_eq_append hsegments, List.nil_append, joinPath, slashed]

/-- **What is read is such a path.** -/
theorem isWrittenPath_parsePath (known : Bool) (s : List Char) :
    IsWrittenPath known (parsePath known s).toList := by
  have hresolved : ∀ segments : List (List Char), segments ≠ [] →
      (∀ t ∈ segments, IsBetweenSlashes known t) →
      IsWrittenPath known (joinPath (resolveFrom [] segments)).toList := by
    intro segments hne hbetween
    have hnone : ∀ t ∈ ([] : List (List Char)), IsSegment known t := fun t ht => nomatch ht
    obtain ⟨hsegments, hsome⟩ := isSegment_resolveFrom hnone hbetween
    exact .inr ⟨_, hsome hne, hsegments, by rw [joinPath, String.toList_ofList]; rfl⟩
  rw [parsePath]
  split
  · cases known with
    | false => exact .inl ⟨rfl, rfl⟩
    | true =>
        exact .inr ⟨[[]], by simp, fun t ht => List.mem_singleton.mp ht ▸ isSegment_nil true, rfl⟩
  next hfull =>
  have hbetween : ∀ t ∈ splitPath known s, IsBetweenSlashes known t := fun t =>
    isBetweenSlashes_of_mem_splitPath
  split
  · next r hsplit =>
      rw [hsplit] at hbetween
      refine hresolved r ?_ fun t ht => hbetween t (List.mem_cons_of_mem [] ht)
      rintro rfl
      have hnil := (Text.splitOn_eq_singleton_iff.mp hsplit).1
      exact hfull (by cases known <;> simpa using hnil)
  · exact hresolved _ (Text.splitOn_ne_nil _ _) hbetween

end RealmDirectory.Url
