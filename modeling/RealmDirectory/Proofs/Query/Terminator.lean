import RealmDirectory.Proofs.Query.Marks
import RealmDirectory.Proofs.Query.Rendering

/-!
# Ends of statements

A statement is terminated when the last of its characters that is not blank is a semicolon. A
page loses the terminator of its statement, and whatever else goes through a statement to its
end has to know whether there is one. The end of a filled template is the end of the template,
unless the template ends in a place: then it is the end of the value. A filter ends in a mark, a
quote or a digit, so a search is terminated exactly when its base statement is.

## Main definitions

* `Text.lastVisible?`: the last character of a text that is not blank.
* `Statement.IsTerminated`: whether that character is a semicolon.

## Main results

* `Page.exists_body_append`: what a page takes away at the end of a statement.
* `Template.isTerminated_fill_iff`: the end of a filled template.
* `CompiledQuery.isTerminated_compile_iff`: when the statement of a search is terminated.
-/

namespace RealmDirectory

namespace Text

/-! ### The last visible character -/

/-- The last character of a text that is not blank. -/
def lastVisible? (s : List Char) : Option Char := (dropEndBlanks s).getLast?

theorem lastVisible?_concat (s : List Char) (c : Char) :
    lastVisible? (s ++ [c]) = if isBlank c then lastVisible? s else some c := by
  rw [lastVisible?, dropEndBlanks, dropEndWhile_concat]
  split
  · rfl
  · exact List.getLast?_concat

/-- **The last visible character of two texts** is that of the second one, when it has any. -/
theorem lastVisible?_append (x y : List Char) :
    lastVisible? (x ++ y) = (lastVisible? y).or (lastVisible? x) := by
  induction y using List.reverseRecOn with
  | nil => simp [lastVisible?, dropEndBlanks, dropEndWhile]
  | append_singleton y c ih =>
      rw [← List.append_assoc, lastVisible?_concat, lastVisible?_concat, ih]
      split <;> rfl

/-- A text of blanks has no visible character. -/
theorem lastVisible?_of_isBlank {s : List Char} (h : ∀ c ∈ s, isBlank c = true) :
    lastVisible? s = none := by
  induction s using List.reverseRecOn with
  | nil => rfl
  | append_singleton s c ih =>
      rw [lastVisible?_concat, h c (by simp), if_pos rfl]
      exact ih fun d hd => h d (List.mem_append_left _ hd)

/-- The last visible character stands in the text, and blanks alone stand behind it. -/
theorem exists_eq_of_lastVisible? {s : List Char} {c : Char} (h : lastVisible? s = some c) :
    ∃ x run, s = x ++ c :: run ∧ ∀ d ∈ run, isBlank d = true := by
  obtain ⟨run, hrun, hblank⟩ := exists_dropEndWhile_append isBlank s
  obtain ⟨x, hx⟩ := List.getLast?_eq_some_iff.mp h
  refine ⟨x, run, ?_, hblank⟩
  have hs : dropEndBlanks s ++ run = s := hrun
  rw [← hs, hx, List.append_assoc]
  rfl

/-- **What stands at the end of a replacement**: what stood there before, or the end of the new
text, when that text shows anything at all. -/
theorem lastVisible?_replace {old new : List Char} (hold : old ≠ [])
    (hnew : (lastVisible? new).isSome) (s : List Char) :
    lastVisible? (replace old new s) = lastVisible? s ∨
      lastVisible? (replace old new s) = lastVisible? new := by
  induction s using piece_induction hold with
  | nil => exact .inl rfl
  | found y ih =>
      rw [replace_piece_append hold, lastVisible?_append, lastVisible?_append]
      cases hy : lastVisible? (replace old new y) with
      | none => exact .inr rfl
      | some c =>
          rw [hy] at ih
          refine ih.imp (fun h => ?_) fun h => ?_
          · rw [← h, Option.some_or, Option.some_or]
          · rw [← h, Option.some_or]
  | other c y hstart ih =>
      have hcons (z : List Char) : lastVisible? (c :: z) = (lastVisible? z).or (lastVisible? [c]) :=
        lastVisible?_append [c] z
      rw [replace_cons hstart, hcons (replace old new y), hcons y]
      refine ih.imp (fun h => congrArg (Option.or · _) h) fun h => ?_
      rw [h, Option.or_of_isSome hnew]

end Text

/-! ### Terminated statements -/

/-- The last character of a statement that is not blank is a semicolon. -/
def Statement.IsTerminated (statement : String) : Prop :=
  Text.lastVisible? statement.toList = some ';'

instance (statement : String) : Decidable (Statement.IsTerminated statement) :=
  inferInstanceAs (Decidable (_ = _))

open Statement (IsTerminated)

/-- **What a page takes away at the end of a statement**: blanks, and semicolons exactly when
the statement is terminated. -/
theorem Page.exists_body_append (s : String) :
    ∃ tail, s.toList = (body s).toList ++ tail ∧
      (∀ c ∈ tail, Text.isBlank c = true ∨ c = ';') ∧
      ((∀ c ∈ tail, Text.isBlank c = true) ↔ ¬ IsTerminated s) := by
  let visible := Text.dropEndBlanks s.toList
  let unmarked := Text.dropEndWhile (· == ';') visible
  obtain ⟨blanks, hblanks, hblank⟩ := Text.exists_dropEndWhile_append Text.isBlank s.toList
  obtain ⟨marks, hmarks, hmark⟩ := Text.exists_dropEndWhile_append (· == ';') visible
  obtain ⟨inner, hinner, hblank'⟩ := Text.exists_dropEndWhile_append Text.isBlank unmarked
  have hbody : (body s).toList = Text.dropEndWhile Text.isBlank unmarked := String.toList_ofList
  refine ⟨inner ++ (marks ++ blanks), ?_, ?_, ?_⟩
  · rw [hbody, ← List.append_assoc, hinner, ← List.append_assoc, hmarks]
    exact hblanks.symm
  · intro c hc
    rcases List.mem_append.mp hc with hc | hc
    · exact .inl (hblank' c hc)
    · exact (List.mem_append.mp hc).symm.imp (hblank c) fun h => beq_iff_eq.mp (hmark c h)
  · constructor
    · intro hall hterminated
      -- The semicolon at the end is taken away, and it is not blank.
      have hlast : ';' ∈ visible.getLast? := hterminated
      have hmem : marks ≠ [] := by
        rintro rfl
        rw [List.append_nil] at hmarks
        have hrest := Text.eq_false_of_mem_getLast?_dropEndWhile (p := (· == ';')) (s := visible)
        rw [hmarks] at hrest
        exact absurd (hrest ';' hlast) (by decide)
      obtain ⟨c, hc⟩ := List.exists_mem_of_ne_nil marks hmem
      have hcblank := hall c (List.mem_append_right _ (List.mem_append_left _ hc))
      rw [beq_iff_eq.mp (hmark c hc)] at hcblank
      exact absurd hcblank (by decide)
    · intro hopen c hc
      have hself : Text.dropEndWhile (· == ';') visible = visible := by
        refine Text.dropEndWhile_eq_self fun d hd => beq_eq_false_iff_ne.mpr ?_
        rintro rfl
        exact hopen hd
      have hnone : marks = [] := by
        rw [hself] at hmarks
        exact List.append_right_eq_self.mp hmarks
      rw [hnone, List.nil_append] at hc
      exact (List.mem_append.mp hc).elim (hblank' c) (hblank c)

/-! ### The end of a filled template -/

namespace Template

/-- Blanks hold no part of a placeholder. -/
theorem isPlain_of_isBlank {s : List Char} (h : ∀ c ∈ s, Text.isBlank c = true) : IsPlain s where
  open_notMem hmem := absurd (h _ hmem) (by decide)
  close_notMem hmem := absurd (h _ hmem) (by decide)
  mark_notMem hmem := absurd (h _ hmem) (by decide)

/-- **A terminator stays at the end of a template**, whatever is filled in. -/
theorem isTerminated_fill {name : String} (hname : IsOutside name.toList ';')
    {template : String} (h : IsTerminated template) (value : String) :
    IsTerminated (fill template name value) := by
  obtain ⟨x, run, hx, hblank⟩ := Text.exists_eq_of_lastVisible? h
  have hmark : Text.lastVisible? (';' :: run) = some ';' := by
    have hsplit := Text.lastVisible?_append [';'] run
    rw [Text.lastVisible?_of_isBlank hblank] at hsplit
    exact hsplit
  rw [IsTerminated, fill, String.toList_ofList, hx, fillChars_append_cons hname,
    fillChars_plain (isPlain_of_isBlank hblank), Text.lastVisible?_append, hmark]
  rfl

/-- **The end of a filled template** is that of the template or of the value, so a value that
shows something and is not terminated does not terminate the template. -/
theorem isTerminated_fill_iff {name value : String} (hname : IsOutside name.toList ';')
    (hshown : (Text.lastVisible? value.toList).isSome) (hopen : ¬ IsTerminated value)
    (template : String) : IsTerminated (fill template name value) ↔ IsTerminated template := by
  refine ⟨fun h => ?_, fun h => isTerminated_fill hname h value⟩
  have haside : Text.lastVisible? (aside name.toList) = some '\x01' :=
    Text.lastVisible?_concat ('\x01' :: name.toList) '\x01'
  have hhole : Text.lastVisible? (placeholder name.toList) = some '}' :=
    Text.lastVisible?_concat ('{' :: name.toList) '}'
  let escapesAside := Text.replace (escaped name.toList) (aside name.toList) template.toList
  let filled := Text.replace (placeholder name.toList) value.toList escapesAside
  have hfirst : Text.lastVisible? escapesAside = Text.lastVisible? template.toList ∨
      Text.lastVisible? escapesAside = Text.lastVisible? (aside name.toList) :=
    Text.lastVisible?_replace escaped_ne_nil (Option.isSome_of_eq_some haside) _
  have hsecond : Text.lastVisible? filled = Text.lastVisible? escapesAside ∨
      Text.lastVisible? filled = Text.lastVisible? value.toList :=
    Text.lastVisible?_replace placeholder_ne_nil hshown _
  let restored := Text.replace (aside name.toList) (placeholder name.toList) filled
  have hthird : Text.lastVisible? restored = Text.lastVisible? filled ∨
      Text.lastVisible? restored = Text.lastVisible? (placeholder name.toList) :=
    Text.lastVisible?_replace aside_ne_nil (Option.isSome_of_eq_some hhole) filled
  rw [IsTerminated, fill, String.toList_ofList] at h
  have hlast : Text.lastVisible? filled = some ';' := by
    refine hthird.elim (fun heq => heq.symm.trans h) fun heq => ?_
    rw [hhole] at heq
    exact absurd (heq.symm.trans h) (by decide)
  have hbefore : Text.lastVisible? escapesAside = some ';' :=
    hsecond.elim (fun heq => heq.symm.trans hlast) fun heq => absurd (heq.symm.trans hlast) hopen
  refine hfirst.elim (fun heq => heq.symm.trans hbefore) fun heq => ?_
  rw [haside] at heq
  exact absurd (heq.symm.trans hbefore) (by decide)

end Template

/-! ### Filters and select lists -/

/-- A filter shows something, and it is not terminated. -/
theorem Selection.exists_lastVisible?_condition {s : Selection} (h : s.IsBound) (exact : Bool) :
    ∃ d, Text.lastVisible? (s.condition exact).toList = some d ∧ d ≠ ';' := by
  have hall : Text.lastVisible? "1=1".toList = some '1' := by decide
  have hnone : Text.lastVisible? "1=0".toList = some '0' := by decide
  match s, h with
  | everyone, _ => exact ⟨'1', hall, by decide⟩
  | nobody, _ => exact ⟨'0', hnone, by decide⟩
  | matching word (e :: l), _ =>
      induction l generalizing e with
      | nil =>
          rw [condition_singleton]
          cases exact with
          | true =>
              have hend : Text.lastVisible? ") = ?  ".toList = some '?' := by decide
              refine ⟨'?', ?_, by decide⟩
              simp only [comparison, if_true, String.toList_append, Text.lastVisible?_append, hend,
                Option.some_or]
          | false =>
              have hend : Text.lastVisible? ") LIKE ? ESCAPE '!' ".toList = some '\'' := by decide
              refine ⟨'\'', ?_, by decide⟩
              simp only [comparison, Bool.false_eq_true, if_false, String.toList_append,
                Text.lastVisible?_append, hend, Option.some_or]
      | cons d l ih =>
          obtain ⟨c, hc, hne⟩ := ih d (List.cons_ne_nil d l)
          refine ⟨c, ?_, hne⟩
          rw [condition_cons, String.toList_append, Text.lastVisible?_append, hc, Option.some_or]

/-- **A search is terminated exactly when its base statement is.** -/
theorem CompiledQuery.isTerminated_compile_iff (base : String) (m : ColumnMapping) (c : Criteria) :
    IsTerminated (compile base m c).query ↔ IsTerminated base := by
  have hfilters : Template.IsOutside Template.filters.toList ';' := by decide
  obtain ⟨d, hd, hne⟩ :=
    Selection.exists_lastVisible?_condition (Selection.isBound_of m c) c.isExact
  have hopen : ¬ IsTerminated ((Selection.of m c).condition c.isExact) := fun h =>
    hne (Option.some.inj (hd.symm.trans h))
  rw [query_compile]
  exact Template.isTerminated_fill_iff hfilters (hd ▸ rfl) hopen base

/-- A select list ends as one of its attributes does, or in the word in front of it. -/
theorem ColumnMapping.exists_lastVisible?_selectList {m : ColumnMapping} (h : m.isEmpty = false) :
    ∃ e ∈ m.entries, Text.lastVisible? m.selectList.toList =
      (Text.lastVisible? e.1.toList).or (some 'S') := by
  have hword : Text.lastVisible? " AS ".toList = some 'S' := by decide
  have hentry (e : String × String) : Text.lastVisible? (e.2 ++ " AS " ++ e.1).toList =
      (Text.lastVisible? e.1.toList).or (some 'S') := by
    rw [String.toList_append, String.toList_append, Text.lastVisible?_append,
      Text.lastVisible?_append, hword, Option.some_or]
  have hlist (l : List (String × String)) (hne : l ≠ []) : ∃ e ∈ l,
      Text.lastVisible? (Text.join ", " (l.map fun e => e.2 ++ " AS " ++ e.1)).toList =
        (Text.lastVisible? e.1.toList).or (some 'S') := by
    induction l with
    | nil => exact absurd rfl hne
    | cons e l ih =>
        cases l with
        | nil => exact ⟨e, List.mem_cons_self, by simpa [Text.join] using hentry e⟩
        | cons d l =>
            obtain ⟨found, hfound, heq⟩ := ih (List.cons_ne_nil d l)
            have hsplit : Text.join ", " ((e :: d :: l).map fun e => e.2 ++ " AS " ++ e.1) =
                e.2 ++ " AS " ++ e.1 ++ ", " ++
                  Text.join ", " ((d :: l).map fun e => e.2 ++ " AS " ++ e.1) :=
              String.intercalate_cons_cons
            refine ⟨found, List.mem_cons_of_mem e hfound, ?_⟩
            rw [hsplit, String.toList_append, Text.lastVisible?_append, heq]
            cases Text.lastVisible? found.1.toList <;> rfl
  exact hlist m.entries (List.isEmpty_eq_false_iff.mp h)

end RealmDirectory
