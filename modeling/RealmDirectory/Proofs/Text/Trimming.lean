import Mathlib.Data.List.Basic
import Mathlib.Data.List.Induction
import Mathlib.Data.List.TakeWhile
import RealmDirectory.Text.Blank

/-!
# Trimmed texts

A run at the end of a text is what the text loses there, and it begins behind the last character
that is not in it. A text that is trimmed has no blanks at its ends, and trimming takes nothing else
away. So what is trimmed already stays as it is, and a text is trimmed away as a whole exactly when
it is blank. A text that is trimmed and compared with a word, whatever the case of the letters, is
that word between blanks.

## Main results

* `exists_dropEndWhile_append`, `eq_false_of_mem_getLast?_dropEndWhile`: what a text loses at its
  end, and what it ends in afterwards.
* `strip_eq_self_iff`: the texts that trimming leaves alone.
* `strip_strip`: trimming once is enough.
* `strip_eq_nil_iff`: the texts of which nothing is left.
* `strip_eq_iff`: the texts of which a trimmed text is left.
* `sameLetters_trim_iff`: the texts that are read as a word.
-/

namespace RealmDirectory.Text

/-! ### The end of a text -/

/-- A run at the end of a text begins behind the last character that is not in it. -/
theorem dropEndWhile_append {p : Char → Bool} {x : List Char} (hx : ∀ c ∈ x, p c = false)
    (y : List Char) : dropEndWhile p (x ++ y) = x ++ dropEndWhile p y := by
  induction x with
  | nil => rfl
  | cons c r ih =>
      have hc : p c = false := hx c List.mem_cons_self
      have hr := ih fun d hd => hx d (List.mem_cons_of_mem c hd)
      rw [List.cons_append, List.cons_append, ← hr]
      simp only [dropEndWhile, List.foldr_cons, hc, Bool.and_false, Bool.false_eq_true, if_false]

theorem dropEndWhile_cons (p : Char → Bool) (c : Char) (r : List Char) :
    dropEndWhile p (c :: r) =
      if (dropEndWhile p r).isEmpty && p c then [] else c :: dropEndWhile p r := rfl

/-- What a text loses at its end is a run. -/
theorem exists_dropEndWhile_append (p : Char → Bool) (s : List Char) :
    ∃ run, dropEndWhile p s ++ run = s ∧ ∀ c ∈ run, p c = true := by
  induction s with
  | nil => exact ⟨[], rfl, fun c hc => absurd hc List.not_mem_nil⟩
  | cons c r ih =>
      obtain ⟨run, hrun, hp⟩ := ih
      rw [dropEndWhile_cons]
      split
      · next h =>
          obtain ⟨hnil, hc⟩ := Bool.and_eq_true_iff.mp h
          rw [List.isEmpty_iff.mp hnil, List.nil_append] at hrun
          exact ⟨c :: r, rfl, List.forall_mem_cons.mpr ⟨hc, hrun ▸ hp⟩⟩
      · exact ⟨run, congrArg (c :: ·) hrun, hp⟩

/-- A run at the end of a text is followed from its last character. -/
theorem dropEndWhile_concat (p : Char → Bool) (s : List Char) (c : Char) :
    dropEndWhile p (s ++ [c]) = if p c then dropEndWhile p s else s ++ [c] := by
  induction s with
  | nil => cases hc : p c <;> simp [dropEndWhile, hc]
  | cons d r ih =>
      rw [List.cons_append, dropEndWhile_cons, ih]
      cases p c with
      | true => rfl
      | false => simp

/-- A text that does not end in a run stays as it is. -/
theorem dropEndWhile_eq_self {p : Char → Bool} {s : List Char}
    (h : ∀ c ∈ s.getLast?, p c = false) : dropEndWhile p s = s := by
  rcases s.eq_nil_or_concat' with rfl | ⟨r, c, rfl⟩
  · rfl
  · have hc : p c = false := h c (by simp)
    rw [dropEndWhile_concat, hc, if_neg Bool.false_ne_true]

/-- No run is left at the end of a text that lost it. -/
theorem eq_false_of_mem_getLast?_dropEndWhile {p : Char → Bool} {s : List Char} :
    ∀ c ∈ (dropEndWhile p s).getLast?, p c = false := by
  induction s using List.reverseRecOn with
  | nil => nofun
  | append_singleton r d ih =>
      rw [dropEndWhile_concat]
      split
      · exact ih
      · next hd =>
          intro c hc
          rw [List.getLast?_concat, Option.mem_some] at hc
          exact hc ▸ Bool.of_not_eq_true hd

/-- What is lost at the end is lost before anything else. -/
theorem dropEndWhile_append_of_forall {p : Char → Bool} {run : List Char}
    (h : ∀ c ∈ run, p c = true) (s : List Char) :
    dropEndWhile p (s ++ run) = dropEndWhile p s := by
  induction run using List.reverseRecOn with
  | nil => rw [List.append_nil]
  | append_singleton run c ih =>
      rw [← List.append_assoc, dropEndWhile_concat, if_pos (h c (by simp))]
      exact ih fun d hd => h d (List.mem_append_left _ hd)

/-! ### Trimming -/

/-- What is left without the blanks in front begins with no blank. -/
theorem head?_dropBlanks {s : List Char} {c : Char} (h : (dropBlanks s).head? = some c) :
    isBlank c = false := by
  have hfirst := List.head?_dropWhile_not isBlank s
  rw [dropBlanks] at h
  rw [h] at hfirst
  exact hfirst

/-- A text keeps its first character when it loses some at the end, unless it loses all. -/
theorem head?_dropEndWhile {p : Char → Bool} {s : List Char} (h : dropEndWhile p s ≠ []) :
    (dropEndWhile p s).head? = s.head? := by
  obtain ⟨run, hrun, -⟩ := exists_dropEndWhile_append p s
  rw [← List.head?_append_of_ne_nil _ h, hrun]

/-- **Trimming leaves a text alone** exactly when it neither begins nor ends in a blank. -/
theorem strip_eq_self_iff {s : List Char} :
    strip s = s ↔ (∀ c ∈ s.head?, isBlank c = false) ∧ ∀ c ∈ s.getLast?, isBlank c = false := by
  constructor
  · intro h
    refine ⟨fun c hc => ?_, fun c hc => ?_⟩
    · have hne : dropEndBlanks (dropBlanks s) ≠ [] := by
        intro hnil
        rw [← h, strip, hnil] at hc
        cases hc
      rw [← h, strip, dropEndBlanks, head?_dropEndWhile hne] at hc
      exact head?_dropBlanks hc
    · rw [← h] at hc
      exact eq_false_of_mem_getLast?_dropEndWhile c hc
  · rintro ⟨hfirst, hlast⟩
    have hdrop : dropBlanks s = s := by
      cases s with
      | nil => rfl
      | cons c r => rw [dropBlanks, List.dropWhile_cons_of_neg (by simp [hfirst c rfl])]
    rw [strip, hdrop]
    exact dropEndWhile_eq_self hlast

/-- **Trimming once is enough.** -/
theorem strip_strip (s : List Char) : strip (strip s) = strip s := by
  refine strip_eq_self_iff.mpr ⟨fun c hc => ?_, eq_false_of_mem_getLast?_dropEndWhile⟩
  have hne : dropEndBlanks (dropBlanks s) ≠ [] := by
    intro hnil
    rw [strip, hnil] at hc
    cases hc
  rw [strip, dropEndBlanks, head?_dropEndWhile hne] at hc
  exact head?_dropBlanks hc

/-- What trimming leaves stood in the text. -/
theorem mem_of_mem_strip {s : List Char} {c : Char} (h : c ∈ strip s) : c ∈ s := by
  obtain ⟨run, hrun, -⟩ := exists_dropEndWhile_append isBlank (dropBlanks s)
  have hmem : c ∈ dropBlanks s := hrun ▸ List.mem_append_left run h
  exact (List.dropWhile_suffix isBlank).subset hmem

/-- **Nothing is left of a text** exactly when it is blank. -/
theorem strip_eq_nil_iff {s : List Char} : strip s = [] ↔ ∀ c ∈ s, isBlank c = true := by
  constructor
  · intro h
    obtain ⟨run, hrun, hblank⟩ := exists_dropEndWhile_append isBlank (dropBlanks s)
    have hnil : dropEndWhile isBlank (dropBlanks s) = [] := h
    rw [hnil, List.nil_append] at hrun
    cases hdrop : dropBlanks s with
    | nil => exact List.dropWhile_eq_nil_iff.mp hdrop
    | cons c r =>
        have hc : isBlank c = false := head?_dropBlanks (by rw [hdrop]; rfl)
        rw [hblank c (by rw [hrun, hdrop]; exact List.mem_cons_self)] at hc
        cases hc
  · intro h
    have hnil : dropBlanks s = [] := List.dropWhile_eq_nil_iff.mpr h
    rw [strip, hnil]
    rfl

/-- **What is left of a text** stood in it between blanks, and begins and ends in no blank. -/
theorem strip_eq_iff {s t : List Char} :
    strip s = t ↔ strip t = t ∧ ∃ before behind, s = before ++ (t ++ behind) ∧
      (∀ c ∈ before, isBlank c = true) ∧ ∀ c ∈ behind, isBlank c = true := by
  constructor
  · rintro rfl
    obtain ⟨run, hrun, hblank⟩ := exists_dropEndWhile_append isBlank (dropBlanks s)
    refine ⟨strip_strip s, s.takeWhile isBlank, run, ?_, fun c => List.mem_takeWhile_imp, hblank⟩
    rw [strip, dropEndBlanks, hrun]
    exact List.takeWhile_append_dropWhile.symm
  · rintro ⟨hself, before, behind, rfl, hbefore, hbehind⟩
    rw [strip, dropBlanks, List.dropWhile_append_of_pos hbefore]
    by_cases ht : t = []
    · subst ht
      exact strip_eq_nil_iff.mpr hbehind
    · have hdrop : (t ++ behind).dropWhile isBlank = t ++ behind := by
        cases t with
        | nil => exact absurd rfl ht
        | cons c r =>
            have hc : isBlank c = false := (strip_eq_self_iff.mp hself).1 c rfl
            rw [List.cons_append, List.dropWhile_cons_of_neg (by simp [hc])]
      rw [hdrop, dropEndBlanks, dropEndWhile_append_of_forall hbehind]
      exact dropEndWhile_eq_self (strip_eq_self_iff.mp hself).2

/-! ### Words in either case -/

/-- A blank is no letter. -/
theorem toLower_of_isBlank {c : Char} (h : isBlank c = true) : c.toLower = c := by
  simp only [isBlank, Bool.or_eq_true, Bool.and_eq_true, beq_iff_eq, decide_eq_true_eq] at h
  unfold Char.toLower
  rw [dif_neg]
  rintro ⟨hA, hZ⟩
  have hA' : 65 ≤ c.toNat := hA
  have hZ' : c.toNat ≤ 90 := hZ
  omega

/-- What is no blank as a small letter is none. -/
theorem isBlank_eq_false_of_toLower {c : Char} (h : isBlank c.toLower = false) :
    isBlank c = false := by
  cases hc : isBlank c with
  | false => rfl
  | true =>
      rw [toLower_of_isBlank hc, hc] at h
      cases h

/-- **A text is read as a word** when it is the word between blanks, whatever the case of its
letters. -/
theorem sameLetters_trim_iff {s word : String}
    (hword : ∀ c ∈ word.toList, isBlank c.toLower = false) :
    sameLetters (trim s) word = true ↔ ∃ before written behind,
      s.toList = before ++ (written ++ behind) ∧
        written.map Char.toLower = word.toList.map Char.toLower ∧
        (∀ c ∈ before, isBlank c = true) ∧ ∀ c ∈ behind, isBlank c = true := by
  have hsame : sameLetters (trim s) word = true ↔
      (strip s.toList).map Char.toLower = word.toList.map Char.toLower := by
    rw [sameLetters, trim, String.toList_ofList, beq_iff_eq]
  rw [hsame]
  constructor
  · intro h
    obtain ⟨-, before, behind, hs, hblanks⟩ := strip_eq_iff.mp (rfl : strip s.toList = _)
    exact ⟨before, strip s.toList, behind, hs, h, hblanks⟩
  · rintro ⟨before, written, behind, hs, hwritten, hblanks⟩
    have hsolid : ∀ c ∈ written, isBlank c = false := by
      intro c hc
      have hmem : c.toLower ∈ word.toList.map Char.toLower := hwritten ▸ List.mem_map_of_mem hc
      obtain ⟨d, hd, hlower⟩ := List.mem_map.mp hmem
      exact isBlank_eq_false_of_toLower (hlower ▸ hword d hd)
    have hself : strip written = written := strip_eq_self_iff.mpr
      ⟨fun c hc => hsolid c (List.mem_of_mem_head? hc),
        fun c hc => hsolid c (List.mem_of_mem_getLast? hc)⟩
    rw [strip_eq_iff.mpr ⟨hself, before, behind, hs, hblanks⟩, hwritten]

end RealmDirectory.Text
