import RealmDirectory.Text.Piece

/-!
# Replacing pieces, part by part

`Text.replace` reads a whole text, but statements about templates speak of what stands
before and behind a placeholder. This module splits a replacement at places that no piece
can reach across: behind a text without the piece's first character, and at a character
that the piece does not hold. What is replaced on one side of such a place does not depend
on the other side.

## Main results

* `replace_append_of_head_notMem`, `replace_append_cons`: the two kinds of places.
* `replace_piece_append`: a piece at the start is replaced, and reading goes on behind it.
* `exists_replace_eq`: when the piece occurs, its replacement stands between parts of which
  the first is the same for every replacement.
* `occursIn_replace_nil`: a piece that is found when other pieces are marked is also found
  when they are deleted.
* `count_replace`: how often a character that the piece does not hold stands in the result.
-/

namespace RealmDirectory.Text

/-! ### Where a replacement can be split -/

/-- Characters that were matched are passed over. -/
theorem replaceFrom_append (old new skipped r : List Char) :
    replaceFrom old new skipped.length (skipped ++ r) = replaceFrom old new 0 r := by
  induction skipped with
  | nil => rfl
  | cons c s ih => simpa [replaceFrom] using ih

/-- A piece at the start of a text is replaced, and the rest is read behind it. -/
theorem replace_piece_append {old : List Char} (hold : old ≠ []) (new r : List Char) :
    replace old new (old ++ r) = new ++ replace old new r := by
  obtain ⟨c, s, rfl⟩ := List.exists_cons_of_ne_nil hold
  have hpre : (c :: s).isPrefixOf (c :: (s ++ r)) = true :=
    List.isPrefixOf_iff_prefix.mpr ⟨r, rfl⟩
  have hskip := replaceFrom_append (c :: s) new s r
  simp only [replace, List.cons_append, replaceFrom, if_pos hpre, List.length_cons,
    Nat.add_sub_cancel, hskip]

/-- A character at which the piece does not begin is copied. -/
theorem replace_cons {old : List Char} {c : Char} {r : List Char} (h : ¬ old <+: c :: r)
    (new : List Char) : replace old new (c :: r) = c :: replace old new r := by
  have hpre : ¬ old.isPrefixOf (c :: r) = true := fun hpre =>
    h (List.isPrefixOf_iff_prefix.mp hpre)
  simp only [replace, replaceFrom, hpre, Bool.false_eq_true, if_false]

/-- A text without the piece's first character is copied, whatever follows. -/
theorem replace_append_of_head_notMem {c : Char} {old new x : List Char} (hx : c ∉ x)
    (y : List Char) :
    replace (c :: old) new (x ++ y) = x ++ replace (c :: old) new y := by
  induction x with
  | nil => rfl
  | cons d x ih =>
      have hcd : ¬ c = d := fun h => hx (h ▸ List.mem_cons_self)
      have hpre : (c :: old).isPrefixOf (d :: (x ++ y)) = false := by
        simp [List.isPrefixOf, hcd]
      have ih := ih fun h => hx (List.mem_cons_of_mem d h)
      simp only [replace] at ih ⊢
      simp only [List.cons_append, replaceFrom, hpre, Bool.false_eq_true, if_false, ih]

/-- A text without the piece's first character stays as it is. -/
theorem replace_eq_self_of_head_notMem {c : Char} {old new x : List Char} (hx : c ∉ x) :
    replace (c :: old) new x = x := by
  have h : replace (c :: old) new (x ++ []) = x ++ replace (c :: old) new [] :=
    replace_append_of_head_notMem hx []
  simpa [replace, replaceFrom] using h

/-- A piece that does not hold the character `c` ends before it. -/
theorem isPrefixOf_append_cons {p : List Char} {c : Char} (hc : c ∉ p) (x y : List Char) :
    p.isPrefixOf (x ++ c :: y) = p.isPrefixOf x := by
  induction p generalizing x with
  | nil => simp
  | cons d p ih =>
      have hdc : ¬ d = c := fun h => hc (h ▸ List.mem_cons_self)
      cases x with
      | nil => simp [List.isPrefixOf, hdc]
      | cons e x =>
          have ih := ih (fun h => hc (List.mem_cons_of_mem d h)) x
          simp [List.isPrefixOf, ih]

/-- A replacement splits at a character that the piece does not hold, also while the
characters of a match are passed over. -/
theorem replaceFrom_append_cons {old : List Char} {c : Char} (hold : old ≠ [])
    (hc : c ∉ old) (new : List Char) {k : Nat} {x : List Char} (hk : k ≤ x.length)
    (y : List Char) :
    replaceFrom old new k (x ++ c :: y) =
      replaceFrom old new k x ++ c :: replaceFrom old new 0 y := by
  induction x generalizing k with
  | nil =>
      obtain rfl : k = 0 := by simpa using hk
      have hpre : old.isPrefixOf (c :: y) = false := by
        have h := isPrefixOf_append_cons hc [] y
        obtain ⟨d, s, rfl⟩ := List.exists_cons_of_ne_nil hold
        simpa using h
      simp [replaceFrom, hpre]
  | cons d x ih =>
      cases k with
      | succ k => simpa [replaceFrom] using ih (Nat.le_of_succ_le_succ hk)
      | zero =>
          have hsame := isPrefixOf_append_cons hc (d :: x) y
          rw [List.cons_append] at hsame
          simp only [List.cons_append, replaceFrom, hsame]
          split
          · next hpre =>
              have hlen := (List.isPrefixOf_iff_prefix.mp hpre).length_le
              rw [List.length_cons] at hlen
              rw [ih (by omega), List.append_assoc]
          · rw [ih (Nat.zero_le _), List.cons_append]

/-- A replacement splits at a character that the piece does not hold. -/
theorem replace_append_cons {old : List Char} {c : Char} (hold : old ≠ []) (hc : c ∉ old)
    (new x y : List Char) :
    replace old new (x ++ c :: y) = replace old new x ++ c :: replace old new y :=
  replaceFrom_append_cons hold hc new (Nat.zero_le _) y

/-! ### Occurrences -/

/-- A text has every piece that it was put together from. -/
theorem occursIn_append_append {p : List Char} (hp : p ≠ []) (x y : List Char) :
    occursIn p (x ++ (p ++ y)) = true := by
  induction x with
  | nil =>
      obtain ⟨c, s, rfl⟩ := List.exists_cons_of_ne_nil hp
      have hpre : (c :: s).isPrefixOf (c :: (s ++ y)) = true :=
        List.isPrefixOf_iff_prefix.mpr ⟨y, rfl⟩
      simp [occursIn, hpre]
  | cons d x ih => simp [occursIn, ih]

/-- A piece is not found in a text without its first character, so looking goes on
behind that text. -/
theorem occursIn_append_of_head_notMem {c : Char} {p x : List Char} (hx : c ∉ x)
    (y : List Char) : occursIn (c :: p) (x ++ y) = occursIn (c :: p) y := by
  induction x with
  | nil => rfl
  | cons d x ih =>
      have hcd : ¬ c = d := fun h => hx (h ▸ List.mem_cons_self)
      have ih := ih fun h => hx (List.mem_cons_of_mem d h)
      simp [occursIn, List.isPrefixOf, hcd, ih]

/-- A text without the piece stays as it is. -/
theorem replace_eq_self {old new s : List Char} (h : occursIn old s = false) :
    replace old new s = s := by
  induction s with
  | nil => rfl
  | cons c r ih =>
      simp only [occursIn, Bool.or_eq_false_iff] at h
      simp only [replace] at ih ⊢
      simp only [replaceFrom, h.1, Bool.false_eq_true, if_false, ih h.2]

/-- When a text has the piece, its first replacement stands behind a part that is the same
for every replacement. -/
theorem exists_replace_eq {old s : List Char} (hold : old ≠ []) (h : occursIn old s = true) :
    ∃ x y, ∀ new, replace old new s = x ++ (new ++ replace old new y) := by
  induction s with
  | nil => simp_all [occursIn]
  | cons c r ih =>
      by_cases hpre : old.isPrefixOf (c :: r) = true
      · obtain ⟨y, hy⟩ := List.isPrefixOf_iff_prefix.mp hpre
        refine ⟨[], y, fun new => ?_⟩
        rw [← hy, replace_piece_append hold, List.nil_append]
      · have hpre : old.isPrefixOf (c :: r) = false := Bool.of_not_eq_true hpre
        obtain ⟨x, y, hxy⟩ := ih (by simpa [occursIn, hpre] using h)
        refine ⟨c :: x, y, fun new => ?_⟩
        have hr := hxy new
        simp only [replace] at hr ⊢
        simp only [replaceFrom, hpre, Bool.false_eq_true, if_false, hr, List.cons_append]

/-! ### Marking and deleting

Pieces are set aside under a mark that begins with a character of its own. A text without
that character cannot tell the mark from the end of what it is compared with. -/

/-- A start that the marked text has, the text with the pieces deleted has too. -/
theorem isPrefixOf_replaceFrom_nil {q old mark s : List Char} {d : Char} (hq : d ∉ q) {k : Nat}
    (h : q.isPrefixOf (replaceFrom old (d :: mark) k s) = true) :
    q.isPrefixOf (replaceFrom old [] k s) = true := by
  induction s generalizing q k with
  | nil => exact h
  | cons c r ih =>
      cases k with
      | succ k => exact ih hq h
      | zero =>
          by_cases hpre : old.isPrefixOf (c :: r) = true
          · -- The mark stands first, and only the empty text starts like it.
            cases q with
            | nil => simp
            | cons e q =>
                have hed : ¬ e = d := fun he => hq (he ▸ List.mem_cons_self)
                simp [replaceFrom, hpre, List.isPrefixOf, hed] at h
          · simp only [replaceFrom, if_neg hpre] at h ⊢
            cases q with
            | nil => simp
            | cons e q =>
                simp only [List.isPrefixOf, Bool.and_eq_true] at h ⊢
                exact ⟨h.1, ih (fun hm => hq (List.mem_cons_of_mem e hm)) h.2⟩

/-- A start that the marked text has, the text itself has too, as no mark reaches into it. -/
theorem prefix_of_prefix_replace {q old mark s : List Char} {d : Char} (hq : d ∉ q)
    (h : q <+: replace old (d :: mark) s) : q <+: s := by
  induction s generalizing q with
  | nil => exact h
  | cons c r ih =>
      cases q with
      | nil => exact List.nil_prefix
      | cons e q =>
          simp only [replace, replaceFrom] at h
          split at h
          · -- The mark stands first, and the start does not begin with it.
            have heq : e = d := (List.cons_prefix_cons.mp h).1
            exact absurd (heq ▸ List.mem_cons_self) hq
          · obtain ⟨rfl, hrest⟩ := List.cons_prefix_cons.mp h
            exact List.cons_prefix_cons.mpr
              ⟨rfl, ih (fun hmem => hq (List.mem_cons_of_mem e hmem)) hrest⟩

/-- What occurs beside marked pieces also occurs when the pieces are deleted. -/
theorem occursIn_replaceFrom_nil {p old mark s : List Char} {c d : Char}
    (hc : c ∉ d :: mark) (hd : d ∉ c :: p) {k : Nat}
    (h : occursIn (c :: p) (replaceFrom old (d :: mark) k s) = true) :
    occursIn (c :: p) (replaceFrom old [] k s) = true := by
  induction s generalizing k with
  | nil => exact h
  | cons e r ih =>
      cases k with
      | succ k => exact ih h
      | zero =>
          by_cases hpre : old.isPrefixOf (e :: r) = true
          · simp only [replaceFrom, if_pos hpre, List.nil_append] at h ⊢
            rw [occursIn_append_of_head_notMem hc] at h
            exact ih h
          · have hstart : (c :: p).isPrefixOf (replaceFrom old (d :: mark) 0 (e :: r)) = true →
                (c :: p).isPrefixOf (replaceFrom old [] 0 (e :: r)) = true :=
              isPrefixOf_replaceFrom_nil hd
            simp only [replaceFrom, if_neg hpre, occursIn, Bool.or_eq_true] at h hstart ⊢
            exact h.imp hstart ih

/-- What occurs beside marked pieces also occurs when the pieces are deleted. -/
theorem occursIn_replace_nil {p old mark s : List Char} {c d : Char} (hc : c ∉ d :: mark)
    (hd : d ∉ c :: p) (h : occursIn (c :: p) (replace old (d :: mark) s) = true) :
    occursIn (c :: p) (replace old [] s) = true :=
  occursIn_replaceFrom_nil hc hd h

/-! ### Counting

What a replacement does to a text is told piece by piece: a piece at the start is replaced,
and a character at which none begins is copied. -/

/-- The number of pieces that a replacement replaces, after passing over `skip` characters
that belong to a piece found before. -/
def occurrencesFrom (piece : List Char) : Nat → List Char → Nat
  | _, [] => 0
  | skip + 1, _ :: r => occurrencesFrom piece skip r
  | 0, c :: r =>
      if piece.isPrefixOf (c :: r) then occurrencesFrom piece (piece.length - 1) r + 1
      else occurrencesFrom piece 0 r

/-- The number of pieces in a text, found from left to right without overlapping. -/
def occurrences (piece text : List Char) : Nat := occurrencesFrom piece 0 text

/-- Characters that were matched are passed over. -/
theorem occurrencesFrom_append (piece skipped r : List Char) :
    occurrencesFrom piece skipped.length (skipped ++ r) = occurrencesFrom piece 0 r := by
  induction skipped with
  | nil => rfl
  | cons c s ih => simpa [occurrencesFrom] using ih

/-- A piece at the start of a text is counted, and the rest is read behind it. -/
theorem occurrences_piece_append {piece : List Char} (hpiece : piece ≠ []) (r : List Char) :
    occurrences piece (piece ++ r) = occurrences piece r + 1 := by
  obtain ⟨c, s, rfl⟩ := List.exists_cons_of_ne_nil hpiece
  have hpre : (c :: s).isPrefixOf (c :: (s ++ r)) = true :=
    List.isPrefixOf_iff_prefix.mpr ⟨r, rfl⟩
  have hskip := occurrencesFrom_append (c :: s) s r
  simp only [occurrences, List.cons_append, occurrencesFrom, if_pos hpre, List.length_cons,
    Nat.add_sub_cancel, hskip]

/-- A character at which the piece does not begin is passed. -/
theorem occurrences_cons {piece : List Char} {c : Char} {r : List Char}
    (h : ¬ piece <+: c :: r) : occurrences piece (c :: r) = occurrences piece r := by
  have hpre : ¬ piece.isPrefixOf (c :: r) = true := fun hpre =>
    h (List.isPrefixOf_iff_prefix.mp hpre)
  simp only [occurrences, occurrencesFrom, hpre, Bool.false_eq_true, if_false]

/-- A text without the piece's first character is passed. -/
theorem occurrences_append_of_head_notMem {c : Char} {piece x : List Char} (hx : c ∉ x)
    (y : List Char) : occurrences (c :: piece) (x ++ y) = occurrences (c :: piece) y := by
  induction x with
  | nil => rfl
  | cons d x ih =>
      have hpre : ¬ c :: piece <+: d :: (x ++ y) := fun hpre =>
        hx ((List.cons_prefix_cons.mp hpre).1 ▸ List.mem_cons_self)
      rw [List.cons_append, occurrences_cons hpre, ih fun h => hx (List.mem_cons_of_mem d h)]

/-- Every text begins with the piece or with a character at which the piece does not begin,
and so does what stands behind either. -/
theorem piece_induction {piece : List Char} (hpiece : piece ≠ []) {P : List Char → Prop}
    (nil : P []) (found : ∀ y, P y → P (piece ++ y))
    (other : ∀ c y, ¬ piece <+: c :: y → P y → P (c :: y)) (s : List Char) : P s := by
  induction hlength : s.length using Nat.strongRecOn generalizing s with
  | ind n ih =>
      subst hlength
      match s with
      | [] => exact nil
      | c :: r =>
          by_cases hpre : piece <+: c :: r
          · obtain ⟨y, hy⟩ := hpre
            have hpos : 0 < piece.length := List.length_pos_iff.mpr hpiece
            have hless : y.length < (c :: r).length := by
              rw [← hy, List.length_append]
              omega
            exact hy ▸ found y (ih y.length hless y rfl)
          · exact other c r hpre (ih r.length (Nat.lt_succ_self _) r rfl)

/-- A piece is found exactly when it is counted. -/
theorem occursIn_eq_true_iff {piece : List Char} (hpiece : piece ≠ []) {s : List Char} :
    occursIn piece s = true ↔ 0 < occurrences piece s := by
  induction s using piece_induction hpiece with
  | nil => simp [occursIn, occurrences, occurrencesFrom, hpiece]
  | found y ih =>
      rw [occurrences_piece_append hpiece]
      exact iff_of_true (occursIn_append_append hpiece [] y) (Nat.succ_pos _)
  | other c y hpre ih =>
      have hstart : piece.isPrefixOf (c :: y) = false :=
        Bool.of_not_eq_true fun h => hpre (List.isPrefixOf_iff_prefix.mp h)
      rw [occurrences_cons hpre, occursIn, hstart, Bool.false_or, ih]

/-- **A character that the piece does not hold** stands in the result as often as in the text,
and in every replacement as often as in the new text. -/
theorem count_replace {old : List Char} (hold : old ≠ []) {d : Char} (hd : d ∉ old)
    (new s : List Char) :
    (replace old new s).count d = s.count d + occurrences old s * new.count d := by
  induction s using piece_induction hold with
  | nil => simp [replace, replaceFrom, occurrences, occurrencesFrom]
  | found y ih =>
      rw [replace_piece_append hold, occurrences_piece_append hold, List.count_append,
        List.count_append, List.count_eq_zero.mpr hd, ih, Nat.succ_mul]
      omega
  | other c y hpre ih =>
      rw [replace_cons hpre, occurrences_cons hpre, List.count_cons, List.count_cons, ih]
      omega

end RealmDirectory.Text
