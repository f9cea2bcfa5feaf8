import RealmDirectory.Proofs.Query.Terminator
import RealmDirectory.Proofs.Text.Splitting

/-!
# What a page takes away

A page takes away what stands at the end of its statement in three steps: blanks, semicolons, and
blanks again. A row of semicolons goes away with the blanks on both sides of it, but of several rows
with blanks between them only the last one does. So what is left never ends in a blank, and it ends
in a semicolon when a second row stood there; and more blanks at the end of a statement change
nothing, while more semicolons may.

## Main definitions

* `Page.Ending`: blanks, a row of semicolons, and blanks.
* `Page.Leaves`: what is left of a statement, and the ending that is taken away.

## Main results

* `Page.exists_leaves`, `Page.Leaves.toList_body`: a page takes away such an ending.
* `Page.getLast?_body_eq_semicolon_iff`: when a semicolon is left.
* `Page.body_append_eq_iff`: when more blanks and semicolons change nothing.
* `Page.paginate_append_iff`: the statements of pages.
-/

namespace RealmDirectory

namespace Page

open Statement (IsTerminated)

/-! ### Endings -/

/-- Blanks, a row of semicolons, and blanks; each part may be empty. -/
structure Ending where
  before : List Char
  marks : List Char
  behind : List Char
  isBlank_before : ∀ c ∈ before, Text.isBlank c = true
  eq_semicolon : ∀ c ∈ marks, c = ';'
  isBlank_behind : ∀ c ∈ behind, Text.isBlank c = true

/-- The characters of an ending. -/
def Ending.text (e : Ending) : List Char := e.before ++ (e.marks ++ e.behind)

/-- A row that is not empty begins with a semicolon. -/
theorem Ending.exists_marks_eq {e : Ending} (h : e.marks ≠ []) : ∃ m, e.marks = ';' :: m := by
  obtain ⟨c, m, hm⟩ := List.exists_cons_of_ne_nil h
  exact ⟨m, e.eq_semicolon c (hm ▸ List.mem_cons_self) ▸ hm⟩

/-- Without a row there are blanks only. -/
theorem Ending.isBlank_of_marks_eq_nil (e : Ending) (h : e.marks = []) {c : Char}
    (hc : c ∈ e.text) : Text.isBlank c = true := by
  rw [text, h, List.nil_append] at hc
  exact (List.mem_append.mp hc).elim (e.isBlank_before c) (e.isBlank_behind c)

variable {s q t : String} {x : List Char}

theorem ne_semicolon_of_isBlank {c : Char} (h : Text.isBlank c = true) : c ≠ ';' := by
  rintro rfl
  exact absurd h (by decide)

/-- A statement is what is left of it and the ending that is taken away. What is left does not end
in a blank. The row of the ending is empty only if nothing but blanks is taken away, and it is the
whole row when no blanks are in front of it. -/
structure Leaves (s x : List Char) (e : Ending) : Prop where
  text : s = x ++ e.text
  visible : ∀ c ∈ x.getLast?, Text.isBlank c = false
  bare : e.marks = [] → e.before = []
  whole : e.before = [] → x.getLast? ≠ some ';'

/-- A page takes away an ending. -/
theorem exists_leaves (s : String) : ∃ e, Leaves s.toList (body s).toList e := by
  have hbody : (body s).toList = Text.dropEndBlanks
      (Text.dropEndWhile (· == ';') (Text.dropEndBlanks s.toList)) := String.toList_ofList
  rw [hbody]
  let visible := Text.dropEndBlanks s.toList
  let unmarked := Text.dropEndWhile (· == ';') visible
  obtain ⟨behind, hbehind, hblank⟩ := Text.exists_dropEndWhile_append Text.isBlank s.toList
  obtain ⟨marks, hmarks, hmark⟩ := Text.exists_dropEndWhile_append (· == ';') visible
  obtain ⟨before, hbefore, hblank'⟩ := Text.exists_dropEndWhile_append Text.isBlank unmarked
  refine ⟨⟨before, marks, behind, hblank', fun c hc => beq_iff_eq.mp (hmark c hc), hblank⟩, ?_,
    Text.eq_false_of_mem_getLast?_dropEndWhile, fun (hnone : marks = []) => ?_,
    fun (hnone : before = []) hlast => ?_⟩
  · calc s.toList = visible ++ behind := hbehind.symm
      _ = (unmarked ++ marks) ++ behind := by rw [hmarks]
      _ = ((Text.dropEndBlanks unmarked ++ before) ++ marks) ++ behind := by
          rw [Text.dropEndBlanks, hbefore]
      _ = _ := by simp only [Ending.text, List.append_assoc]; rfl
  · have hsame : unmarked = visible := by rw [← hmarks, hnone, List.append_nil]
    have hself : Text.dropEndWhile Text.isBlank unmarked = unmarked :=
      Text.dropEndWhile_eq_self (hsame ▸ Text.eq_false_of_mem_getLast?_dropEndWhile)
    rw [hself] at hbefore
    exact List.append_right_eq_self.mp hbefore
  · have hself : Text.dropEndBlanks unmarked = unmarked := by
      rw [hnone, List.append_nil] at hbefore
      exact hbefore
    have hopen : ∀ c ∈ unmarked.getLast?, (c == ';') = false :=
      Text.eq_false_of_mem_getLast?_dropEndWhile
    rw [← hself] at hopen
    exact absurd (hopen ';' hlast) (by decide)

/-- **What is left of a statement** is what stands in front of such an ending. The three steps take
away the parts of the ending from the last one to the first. -/
theorem Leaves.toList_body {e : Ending} (h : Leaves s.toList x e) : (body s).toList = x := by
  have hbody : (body s).toList = Text.dropEndBlanks
      (Text.dropEndWhile (· == ';') (Text.dropEndBlanks s.toList)) := String.toList_ofList
  have hvisible : Text.dropEndBlanks s.toList = Text.dropEndBlanks (x ++ e.before ++ e.marks) := by
    rw [h.text, Ending.text, ← List.append_assoc, ← List.append_assoc]
    exact Text.dropEndWhile_append_of_forall e.isBlank_behind _
  have hopen : Text.dropEndWhile (· == ';') (x ++ e.before) = x ++ e.before := by
    refine Text.dropEndWhile_eq_self fun c hc => beq_eq_false_iff_ne.mpr ?_
    rw [List.getLast?_append] at hc
    cases hend : e.before.getLast? with
    | some b =>
        rw [hend, Option.some_or, Option.mem_some] at hc
        exact hc ▸ ne_semicolon_of_isBlank (e.isBlank_before b (List.mem_of_getLast? hend))
    | none =>
        rintro rfl
        rw [hend, Option.none_or] at hc
        exact h.whole (List.getLast?_eq_none_iff.mp hend) hc
  have hrest : Text.dropEndBlanks (x ++ e.before) = x :=
    (Text.dropEndWhile_append_of_forall e.isBlank_before x).trans
      (Text.dropEndWhile_eq_self h.visible)
  rw [hbody, hvisible]
  by_cases hnone : e.marks = []
  · have hbare : x ++ e.before = x := by rw [h.bare hnone, List.append_nil]
    rw [hnone, List.append_nil, hrest, ← hbare, hopen, hrest, hbare]
  · have hmark : ∀ c ∈ (x ++ e.before ++ e.marks).getLast?, Text.isBlank c = false := by
      intro c hc
      obtain ⟨m, hm⟩ := Option.ne_none_iff_exists'.mp
        fun h => hnone (List.getLast?_eq_none_iff.mp h)
      rw [List.getLast?_append, hm, Option.some_or, Option.mem_some] at hc
      rw [← hc, e.eq_semicolon m (List.mem_of_getLast? hm)]
      rfl
    have hdrop : Text.dropEndWhile (· == ';') (x ++ e.before ++ e.marks) =
        Text.dropEndWhile (· == ';') (x ++ e.before) :=
      Text.dropEndWhile_append_of_forall (fun c hc => beq_iff_eq.mpr (e.eq_semicolon c hc)) _
    rw [Text.dropEndBlanks, Text.dropEndBlanks, Text.dropEndWhile_eq_self hmark, hdrop, hopen]
    exact hrest

/-- **A semicolon is left** when blanks stand between it and the row that is taken away. -/
theorem getLast?_body_eq_semicolon_iff :
    (body q).toList.getLast? = some ';' ↔
      ∃ x, ∃ e : Ending, q.toList = x ++ ';' :: e.text ∧ e.before ≠ [] ∧ e.marks ≠ [] := by
  constructor
  · intro hlast
    obtain ⟨e, h⟩ := exists_leaves q
    obtain ⟨x, hx⟩ := List.getLast?_eq_some_iff.mp hlast
    refine ⟨x, e, ?_, fun hnone => h.whole hnone hlast, fun hnone => h.whole (h.bare hnone) hlast⟩
    rw [h.text, hx, List.append_assoc, List.singleton_append]
  · rintro ⟨x, e, hq, hbefore, hmarks⟩
    have h : Leaves q.toList (x ++ [';']) e := by
      refine ⟨?_, fun c hc => ?_, fun hnone => absurd hnone hmarks,
        fun hnone => absurd hnone hbefore⟩
      · rw [hq, List.append_assoc, List.singleton_append]
      · rw [List.getLast?_concat, Option.mem_some] at hc
        exact hc ▸ rfl
    rw [h.toList_body]
    exact List.getLast?_concat

/-- A statement is terminated when semicolons are taken away. -/
theorem isTerminated_iff {e : Ending} (h : Leaves q.toList (body q).toList e) :
    IsTerminated q ↔ e.marks ≠ [] := by
  obtain ⟨tail, htail, -, hiff⟩ := exists_body_append q
  obtain rfl : tail = e.text := List.append_cancel_left (htail.symm.trans h.text)
  rw [← not_iff_not, ← hiff, not_not]
  constructor
  · intro hall
    by_contra hne
    obtain ⟨c, hc⟩ := List.exists_mem_of_ne_nil e.marks hne
    have hblank := hall c (List.mem_append_right _ (List.mem_append_left _ hc))
    exact ne_semicolon_of_isBlank hblank (e.eq_semicolon c hc)
  · intro hnone c hc
    exact e.isBlank_of_marks_eq_nil hnone hc

/-- A terminated statement ends in its semicolon when no blanks are behind the row. -/
theorem Leaves.getLast?_eq_semicolon_iff {s : List Char} {e : Ending} (h : Leaves s x e)
    (hmarks : e.marks ≠ []) : s.getLast? = some ';' ↔ e.behind = [] := by
  rw [h.text, Ending.text, ← List.append_assoc, ← List.append_assoc, List.getLast?_append]
  cases hlast : e.behind.getLast? with
  | some c =>
      have hc := List.mem_of_getLast? hlast
      rw [Option.some_or, Option.some.injEq]
      exact iff_of_false (ne_semicolon_of_isBlank (e.isBlank_behind c hc)) (List.ne_nil_of_mem hc)
  | none =>
      obtain ⟨c, hc⟩ := Option.ne_none_iff_exists'.mp fun hnone =>
        hmarks (List.getLast?_eq_none_iff.mp hnone)
      rw [Option.none_or, List.getLast?_append, hc, Option.some_or,
        e.eq_semicolon c (List.mem_of_getLast? hc)]
      exact iff_of_true rfl (List.getLast?_eq_none_iff.mp hlast)

/-! ### More at the end -/

/-- Blanks in front of a semicolon end where the semicolon is. -/
theorem eq_of_blanks_append {b b' y y' : List Char} (hb : ∀ c ∈ b, Text.isBlank c = true)
    (hb' : ∀ c ∈ b', Text.isBlank c = true) (h : b ++ ';' :: y = b' ++ ';' :: y') :
    b = b' ∧ y = y' := by
  have hend (z : List Char) {l : List Char} (hl : ∀ c ∈ l, Text.isBlank c = true) :=
    Text.takeWhile_dropWhile_append hl (d := ';') rfl z
  have hsame : b = b' := by
    rw [← (hend y hb).1, ← (hend y' hb').1, h]
  subst hsame
  exact ⟨rfl, (List.cons.inj (List.append_cancel_left h)).2⟩

/-- What stands behind a row of semicolons and blanks, when it goes on to an ending: blanks, or
more of the row when there are no blanks in between. -/
theorem cases_of_row_append {m m' b b' y : List Char} (hm' : ∀ c ∈ m', c = ';')
    (hb : ∀ c ∈ b, Text.isBlank c = true) (hb' : ∀ c ∈ b', Text.isBlank c = true)
    (h : m ++ (b ++ y) = m' ++ b') :
    (∀ c ∈ y, Text.isBlank c = true) ∨ b = [] ∧ ∃ m'', m' = m ++ m'' ∧ y = m'' ++ b' := by
  rcases List.append_eq_append_iff.mp h with ⟨a, rfl, hrest⟩ | ⟨a, -, rfl⟩
  · rcases List.append_eq_append_iff.mp hrest with ⟨a', rfl, rfl⟩ | ⟨a', -, rfl⟩
    · have hnil : b = [] := by
        refine List.eq_nil_iff_forall_not_mem.mpr fun c hc => ?_
        exact ne_semicolon_of_isBlank (hb c hc) (hm' c (by simp [hc]))
      subst hnil
      exact .inr ⟨rfl, a', rfl, rfl⟩
    · exact .inl fun c hc => hb' c (List.mem_append_right _ hc)
  · exact .inl fun c hc => hb' c (by simp [hc])

/-- The end of an ending is an ending. -/
theorem exists_text_of_append_eq {y : List Char} {e : Ending} (h : x ++ y = e.text) :
    ∃ e' : Ending, y = e'.text := by
  rcases List.append_eq_append_iff.mp h with ⟨a, hbefore, rfl⟩ | ⟨a, -, hrest⟩
  · exact ⟨⟨a, e.marks, e.behind, fun c hc => e.isBlank_before c (by simp [hbefore, hc]),
      e.eq_semicolon, e.isBlank_behind⟩, rfl⟩
  · rcases List.append_eq_append_iff.mp hrest with ⟨a', -, hbehind⟩ | ⟨a', hmarks, rfl⟩
    · exact ⟨⟨[], [], y, nofun, nofun, fun c hc => e.isBlank_behind c (by simp [hbehind, hc])⟩, rfl⟩
    · exact ⟨⟨[], a', e.behind, nofun, fun c hc => e.eq_semicolon c (by simp [hmarks, hc]),
        e.isBlank_behind⟩, rfl⟩

namespace Leaves

variable {s y : List Char} {e e' : Ending}

/-- Blanks at the end go away with the ending. -/
theorem append_blanks (h : Leaves s x e) (hy : ∀ c ∈ y, Text.isBlank c = true) :
    ∃ e', Leaves (s ++ y) x e' := by
  refine ⟨⟨e.before, e.marks, e.behind ++ y, e.isBlank_before, e.eq_semicolon,
    fun c hc => (List.mem_append.mp hc).elim (e.isBlank_behind c) (hy c)⟩, ?_, h.visible, h.bare,
    h.whole⟩
  rw [h.text]
  simp only [Ending.text, List.append_assoc]

/-- A row at the end goes away when none is there. -/
theorem append_row (h : Leaves s x e) (hnone : e.marks = []) (hrow : e'.marks ≠ []) :
    ∃ e₁, Leaves (s ++ e'.text) x e₁ := by
  refine ⟨⟨e.behind ++ e'.before, e'.marks, e'.behind,
    fun c hc => (List.mem_append.mp hc).elim (e.isBlank_behind c) (e'.isBlank_before c),
    e'.eq_semicolon, e'.isBlank_behind⟩, ?_, h.visible, fun hnil => absurd hnil hrow,
    fun _ => h.whole (h.bare hnone)⟩
  rw [h.text]
  simp only [Ending.text, hnone, h.bare hnone, List.nil_append, List.append_assoc]

/-- A row at the end joins the one that is there when there are no blanks in between. -/
theorem append_marks (h : Leaves s x e) (hrow : e.marks ≠ []) (hbehind : e.behind = [])
    (hbefore : e'.before = []) : ∃ e₁, Leaves (s ++ e'.text) x e₁ := by
  refine ⟨⟨e.before, e.marks ++ e'.marks, e'.behind, e.isBlank_before,
    fun c hc => (List.mem_append.mp hc).elim (e.eq_semicolon c) (e'.eq_semicolon c),
    e'.isBlank_behind⟩, ?_, h.visible,
    fun hnil => absurd (List.append_eq_nil_iff.mp hnil).1 hrow, h.whole⟩
  rw [h.text]
  simp only [Ending.text, hbehind, hbefore, List.nil_append, List.append_assoc]

/-- What is longer about a statement that leaves the same is taken away as well. -/
theorem text_append (h : Leaves s x e) (h' : Leaves (s ++ y) x e') : e.text ++ y = e'.text := by
  have htext := h'.text
  rw [h.text, List.append_assoc] at htext
  exact List.append_cancel_left htext

/-- When a statement with a row and a longer one leave the same, what is longer about it is blank,
or more of the row. Both rows begin at the first semicolon. -/
theorem cases_of_append (h : Leaves s x e) (h' : Leaves (s ++ y) x e') (hrow : e.marks ≠ []) :
    (∀ c ∈ y, Text.isBlank c = true) ∨
      e.behind = [] ∧ ∃ e₁ : Ending, y = e₁.text ∧ e₁.before = [] := by
  have hrest := h.text_append h'
  obtain ⟨m, hm⟩ := Ending.exists_marks_eq hrow
  obtain ⟨m', hm'⟩ : ∃ m', e'.marks = ';' :: m' := by
    refine Ending.exists_marks_eq fun hnil => ?_
    have hmem : ';' ∈ e'.text := hrest ▸ List.mem_append_left _ (by simp [Ending.text, hm])
    exact ne_semicolon_of_isBlank (e'.isBlank_of_marks_eq_nil hnil hmem) rfl
  simp only [Ending.text, hm, hm', List.cons_append, List.append_assoc] at hrest
  obtain ⟨-, hrest⟩ := eq_of_blanks_append e.isBlank_before e'.isBlank_before hrest
  have hmarks : ∀ c ∈ m', c = ';' := fun c hc =>
    e'.eq_semicolon c (hm' ▸ List.mem_cons_of_mem _ hc)
  refine (cases_of_row_append hmarks e.isBlank_behind e'.isBlank_behind hrest).imp_right ?_
  rintro ⟨hnil, m'', rfl, rfl⟩
  exact ⟨hnil, ⟨[], m'', e'.behind, nofun, fun c hc => hmarks c (by simp [hc]),
    e'.isBlank_behind⟩, rfl, rfl⟩

end Leaves

/-- **More at the end of a statement changes nothing** when it is blank, or when it is one row of
semicolons with blanks around it that joins the row that is there, if any is. -/
theorem body_append_eq_iff :
    body (q ++ t) = body q ↔ (∀ c ∈ t.toList, Text.isBlank c = true) ∨
      ∃ e : Ending, t.toList = e.text ∧
        (IsTerminated q → e.before = [] ∧ q.toList.getLast? = some ';') := by
  obtain ⟨e, h⟩ := exists_leaves q
  rw [isTerminated_iff h]
  constructor
  · intro hsame
    obtain ⟨e', h'⟩ := exists_leaves (q ++ t)
    rw [hsame, String.toList_append] at h'
    by_cases hrow : e.marks = []
    · obtain ⟨e₁, ht⟩ := exists_text_of_append_eq (h.text_append h')
      exact .inr ⟨e₁, ht, fun hne => absurd hrow hne⟩
    · refine (h.cases_of_append h' hrow).imp_right ?_
      rintro ⟨hbehind, e₁, ht, hbefore⟩
      exact ⟨e₁, ht, fun _ => ⟨hbefore, (h.getLast?_eq_semicolon_iff hrow).mpr hbehind⟩⟩
  · intro hmore
    suffices hleaves : ∃ e', Leaves (q.toList ++ t.toList) (body q).toList e' by
      obtain ⟨e', h'⟩ := hleaves
      rw [← String.toList_append] at h'
      exact String.toList_inj.mp h'.toList_body
    rcases hmore with hblank | ⟨e', ht, hjoin⟩
    · exact h.append_blanks hblank
    by_cases hrow' : e'.marks = []
    · exact h.append_blanks fun c hc => e'.isBlank_of_marks_eq_nil hrow' (ht ▸ hc)
    rw [ht]
    by_cases hrow : e.marks = []
    · exact h.append_row hrow hrow'
    · obtain ⟨hbefore, hlast⟩ := hjoin hrow
      exact h.append_marks hrow ((h.getLast?_eq_semicolon_iff hrow).mp hlast) hbefore

/-! ### Statements of pages -/

/-- An ordering that is added to one of two statements is added to the other one as well, when the
statements differ in blanks and semicolons only and the results do not. -/
theorem eq_nil_of_append_addedOrder_eq {d : Dialect} {y z : String} {w : List Char}
    (hw : ∀ c ∈ w, Text.isBlank c = true ∨ c = ';')
    (h : (d.addedOrder y).toList = w ++ (d.addedOrder z).toList) : w = [] := by
  have hcases (s : String) :
      d.addedOrder s = "" ∨ d.addedOrder s = " ORDER BY (SELECT NULL)" := by
    unfold Dialect.addedOrder
    split
    · split
      · exact .inl rfl
      · exact .inr rfl
    · exact .inl rfl
  rcases hcases y with hy | hy <;> rcases hcases z with hz | hz <;> rw [hy, hz] at h
  · exact (List.append_eq_nil_iff.mp h.symm).1
  · exact (List.append_eq_nil_iff.mp h.symm).1
  · rw [String.toList_empty, List.append_nil] at h
    exact absurd (hw 'O' (h ▸ by decide)) (by decide)
  · exact List.append_left_eq_self.mp h.symm

/-- The statements of two pages are the same when what is left of the statements is, provided that
the statements differ in blanks and semicolons at their ends only. -/
theorem paginate_append_eq_iff_body (d : Dialect) (p : Page)
    (ht : ∀ c ∈ t.toList, Text.isBlank c = true ∨ c = ';') :
    paginate d (some p) (q ++ t) = paginate d (some p) q ↔ body (q ++ t) = body q := by
  refine ⟨fun h => ?_, fun h => by rw [paginate, h]; rfl⟩
  have hlist : (body (q ++ t)).toList ++ (d.addedOrder (body (q ++ t))).toList =
      (body q).toList ++ (d.addedOrder (body q)).toList := by
    have hall := congrArg String.toList h
    simp only [paginate, Dialect.paginate, String.toList_append] at hall
    exact List.append_cancel_right hall
  obtain ⟨tail, htail, hchars, -⟩ := exists_body_append q
  obtain ⟨tail', htail', hchars', -⟩ := exists_body_append (q ++ t)
  have hboth : (body q).toList ++ (tail ++ t.toList) = (body (q ++ t)).toList ++ tail' := by
    rw [← htail', String.toList_append, htail, List.append_assoc]
  -- One of the two is the other one and something that was taken away.
  rcases List.append_eq_append_iff.mp hboth with ⟨w, hw, hrest⟩ | ⟨w, hw, hrest⟩
  · have hnil : w = [] := by
      refine eq_nil_of_append_addedOrder_eq (d := d) (y := body q) (z := body (q ++ t))
        (fun c hc => ?_) ?_
      · have hmem : c ∈ tail ++ t.toList := hrest ▸ List.mem_append_left _ hc
        exact (List.mem_append.mp hmem).elim (hchars c) (ht c)
      · rw [hw, List.append_assoc] at hlist
        exact (List.append_cancel_left hlist).symm
    rw [hnil, List.append_nil] at hw
    exact String.toList_inj.mp hw
  · have hnil : w = [] := by
      refine eq_nil_of_append_addedOrder_eq (d := d) (y := body (q ++ t)) (z := body q)
        (fun c hc => hchars' c (hrest ▸ List.mem_append_left _ hc)) ?_
      rw [hw, List.append_assoc] at hlist
      exact List.append_cancel_left hlist
    rw [hnil, List.append_nil] at hw
    exact (String.toList_inj.mp hw).symm

/-- **What stands at the end of a statement, and its pages.** The statement of a page is what is
left of the statement, the ordering that a dialect adds, and its clause. What is left never ends in
a blank. It ends in a semicolon exactly when the statement ends in two rows of semicolons with
blanks between them, of which the last one was taken away. And more blanks and semicolons at the end
of the statement change nothing exactly when they are blanks only, or one row of semicolons with
blanks around it, which has to follow directly upon the semicolon of a statement that is terminated
already. -/
theorem paginate_append_iff (d : Dialect) (p : Page) (q : String) {t : String}
    (ht : ∀ c ∈ t.toList, Text.isBlank c = true ∨ c = ';') :
    paginate d (some p) q =
        body q ++ d.addedOrder (body q) ++ d.pageClause p.offset p.size.toNat ∧
      (∀ c ∈ (body q).toList.getLast?, Text.isBlank c = false) ∧
      ((body q).toList.getLast? = some ';' ↔
        ∃ x, ∃ e : Ending, q.toList = x ++ ';' :: e.text ∧ e.before ≠ [] ∧ e.marks ≠ []) ∧
      (paginate d (some p) (q ++ t) = paginate d (some p) q ↔
        (∀ c ∈ t.toList, Text.isBlank c = true) ∨
          ∃ e : Ending, t.toList = e.text ∧
            (IsTerminated q → e.before = [] ∧ q.toList.getLast? = some ';')) := by
  obtain ⟨e, h⟩ := exists_leaves q
  exact ⟨rfl, h.visible, getLast?_body_eq_semicolon_iff,
    (paginate_append_eq_iff_body d p ht).trans body_append_eq_iff⟩

/-- A second terminator behind a blank: the first one is left in front of the clause of the page,
and the page is not that of the statement with one terminator. -/
theorem paginate_append_iff_second_row :
    let q := "select login from users;"
    let t := " ;"
    (∀ c ∈ t.toList, Text.isBlank c = true ∨ c = ';') ∧
      (body (q ++ t)).toList.getLast? = some ';' ∧
      paginate .postgreSql (some ⟨0, 5⟩) (q ++ t) = "select login from users; LIMIT 5 OFFSET 0" ∧
      paginate .postgreSql (some ⟨0, 5⟩) (q ++ t) ≠ paginate .postgreSql (some ⟨0, 5⟩) q := by
  intro q t
  have ht : ∀ c ∈ t.toList, Text.isBlank c = true ∨ c = ';' :=
    List.forall_iff_forall_mem.mp (by decide)
  obtain ⟨-, -, hlast, -⟩ := paginate_append_iff .postgreSql ⟨0, 5⟩ (q ++ t) ht
  let e : Ending := ⟨[' '], [';'], [], List.forall_iff_forall_mem.mp (by decide),
    List.forall_iff_forall_mem.mp (by decide), nofun⟩
  have hrow : (q ++ t).toList = "select login from users".toList ++ ';' :: e.text := by
    decide +kernel
  exact ⟨ht, hlast.mpr ⟨_, e, hrow, List.cons_ne_nil _ _, List.cons_ne_nil _ _⟩,
    by decide +kernel, by decide +kernel⟩

end Page

end RealmDirectory
