import RealmDirectory.Proofs.Text.Replacing
import RealmDirectory.Query.Template

/-!
# Filling placeholders

What filling does to a template, part by part. Text without braces and without the mark
under which escapes are set aside is copied; a placeholder becomes its value; and at a
character that no placeholder holds, such as the blank in front of one, the parts are filled
independently of each other.

A template has a *place* for a value when a placeholder remains once the escapes are set
aside. A template without one is filled in the same way by every value.

## Main results

* `fillChars_placeholder_append`: a placeholder at the start is filled, whatever follows.
* `fill_around`, `mentions_around`: a template with one placeholder between plain texts.
* `fill_append_blank`, `mentions_behind_blank`: a placeholder behind a blank, between any
  texts.
* `hasPlace_eq_false_iff`: a template has no place exactly when no value shows in it.
* `mentions_of_hasPlace`: a template with a place mentions the placeholder.
-/

namespace RealmDirectory.Template

/-! ### Names and plain texts -/

/-- Names that can be told from the braces around them and from the mark of an escape. -/
structure IsName (name : List Char) : Prop where
  open_notMem : '{' ∉ name
  close_notMem : '}' ∉ name
  mark_notMem : '\x01' ∉ name

instance (name : List Char) : Decidable (IsName name) :=
  decidable_of_iff ('{' ∉ name ∧ '}' ∉ name ∧ '\x01' ∉ name)
    ⟨fun ⟨h₁, h₂, h₃⟩ => ⟨h₁, h₂, h₃⟩, fun ⟨h₁, h₂, h₃⟩ => ⟨h₁, h₂, h₃⟩⟩

/-- The placeholder for search filters has a proper name. -/
theorem isName_filters : IsName filters.toList := by decide

/-- Text that holds no part of a placeholder, an escape or the mark of an escape. -/
structure IsPlain (s : List Char) : Prop where
  open_notMem : '{' ∉ s
  close_notMem : '}' ∉ s
  mark_notMem : '\x01' ∉ s

section

variable {name : List Char}

theorem placeholder_ne_nil : placeholder name ≠ [] := by simp [placeholder]

theorem escaped_ne_nil : escaped name ≠ [] := by simp [escaped]

theorem aside_ne_nil : aside name ≠ [] := by simp [aside]

/-- A character that is neither in the name nor a brace nor the mark is in no piece that
filling looks for. -/
structure IsOutside (name : List Char) (c : Char) : Prop where
  notMem : c ∉ name
  ne_open : c ≠ '{'
  ne_close : c ≠ '}'
  ne_mark : c ≠ '\x01'

instance (name : List Char) (c : Char) : Decidable (IsOutside name c) :=
  decidable_of_iff (c ∉ name ∧ c ≠ '{' ∧ c ≠ '}' ∧ c ≠ '\x01')
    ⟨fun ⟨h₁, h₂, h₃, h₄⟩ => ⟨h₁, h₂, h₃, h₄⟩, fun ⟨h₁, h₂, h₃, h₄⟩ => ⟨h₁, h₂, h₃, h₄⟩⟩

theorem IsOutside.notMem_placeholder {c : Char} (h : IsOutside name c) :
    c ∉ placeholder name := by
  simp [placeholder, h.notMem, h.ne_open, h.ne_close]

theorem IsOutside.notMem_escaped {c : Char} (h : IsOutside name c) : c ∉ escaped name := by
  simp [escaped, h.notMem, h.ne_open, h.ne_close]

theorem IsOutside.notMem_aside {c : Char} (h : IsOutside name c) : c ∉ aside name := by
  simp [aside, h.notMem, h.ne_mark]

/-- The blank is outside the placeholder for search filters. -/
theorem isOutside_filters_blank : IsOutside filters.toList ' ' := by decide

/-! ### Filling part by part -/

/-- The escapes of a value that is filled in come back with those of the template. -/
def restore (name value : List Char) : List Char :=
  Text.replace (aside name) (placeholder name) value

/-- A value without the mark comes back as it is. -/
theorem restore_eq_self {value : List Char} (h : '\x01' ∉ value) :
    restore name value = value :=
  Text.replace_eq_self_of_head_notMem h

/-- Text in front that holds no brace and no mark is copied. -/
theorem fillChars_plain_append {x : List Char} (hx : IsPlain x) (y value : List Char) :
    fillChars (x ++ y) name value = x ++ fillChars y name value := by
  have he : Text.replace (escaped name) (aside name) (x ++ y) =
      x ++ Text.replace (escaped name) (aside name) y :=
    Text.replace_append_of_head_notMem hx.open_notMem y
  have hp (z : List Char) : Text.replace (placeholder name) value (x ++ z) =
      x ++ Text.replace (placeholder name) value z :=
    Text.replace_append_of_head_notMem hx.open_notMem z
  have ha (z : List Char) : Text.replace (aside name) (placeholder name) (x ++ z) =
      x ++ Text.replace (aside name) (placeholder name) z :=
    Text.replace_append_of_head_notMem hx.mark_notMem z
  simp only [fillChars, he, hp, ha]

/-- A plain text is copied. -/
theorem fillChars_plain {x : List Char} (hx : IsPlain x) (value : List Char) :
    fillChars x name value = x := by
  have h : fillChars (x ++ []) name value = x ++ fillChars [] name value :=
    fillChars_plain_append hx [] value
  simpa [fillChars, Text.replace, Text.replaceFrom] using h

/-- The parts on both sides of an outside character are filled independently. -/
theorem fillChars_append_cons {c : Char} (hc : IsOutside name c) (x y value : List Char) :
    fillChars (x ++ c :: y) name value =
      fillChars x name value ++ c :: fillChars y name value := by
  simp only [fillChars, Text.replace_append_cons escaped_ne_nil hc.notMem_escaped,
    Text.replace_append_cons placeholder_ne_nil hc.notMem_placeholder,
    Text.replace_append_cons aside_ne_nil hc.notMem_aside]

/-- A placeholder is no escape and none begins inside it, so setting escapes aside, or
deleting them, goes on behind it. -/
theorem replace_escaped_placeholder_append (hname : IsName name) (new y : List Char) :
    Text.replace (escaped name) new (placeholder name ++ y) =
      placeholder name ++ Text.replace (escaped name) new y := by
  have hstart : (escaped name).isPrefixOf ('{' :: (name ++ '}' :: y)) = false := by
    cases name with
    | nil => simp [escaped, List.isPrefixOf]
    | cons c s =>
        have hc : ¬ '{' = c := fun h => hname.open_notMem (h ▸ List.mem_cons_self)
        simp [escaped, List.isPrefixOf, hc]
  have hrest : '{' ∉ name ++ ['}'] := by
    simpa using hname.open_notMem
  have hcopy : Text.replace (escaped name) new ((name ++ ['}']) ++ y) =
      (name ++ ['}']) ++ Text.replace (escaped name) new y :=
    Text.replace_append_of_head_notMem hrest y
  simp only [List.append_assoc, List.cons_append, List.nil_append, Text.replace] at hcopy
  simp only [placeholder, List.cons_append, List.append_assoc, List.nil_append, Text.replace,
    Text.replaceFrom, hstart, Bool.false_eq_true, if_false, hcopy]

/-- A placeholder at the start becomes its value, and filling goes on behind it. The value
has to end in a character that is in no mark of an escape, so that the end of the value and
the start of what follows do not form one. -/
theorem fillChars_placeholder_append (hname : IsName name) {value : List Char} {d : Char}
    (hd : d ∉ aside name) (y : List Char) :
    fillChars (placeholder name ++ y) name (value ++ [d]) =
      restore name (value ++ [d]) ++ fillChars y name (value ++ [d]) := by
  have hsplit (z : List Char) : Text.replace (aside name) (placeholder name)
      ((value ++ [d]) ++ z) = restore name (value ++ [d]) ++
        Text.replace (aside name) (placeholder name) z := by
    have hz := Text.replace_append_cons aside_ne_nil hd (placeholder name) value z
    have hnil := Text.replace_append_cons aside_ne_nil hd (placeholder name) value []
    simp only [restore, List.append_assoc, List.cons_append, List.nil_append] at hz hnil ⊢
    rw [hz, hnil]
    simp [Text.replace, Text.replaceFrom]
  simp only [fillChars, replace_escaped_placeholder_append hname,
    Text.replace_piece_append placeholder_ne_nil, hsplit]

/-- A placeholder behind plain text is mentioned. -/
theorem mentionsChars_plain_append (hname : IsName name) {x : List Char} (hx : IsPlain x)
    (y : List Char) : mentionsChars (x ++ (placeholder name ++ y)) name = true := by
  have hcopy : Text.replace (escaped name) [] (x ++ (placeholder name ++ y)) =
      x ++ Text.replace (escaped name) [] (placeholder name ++ y) :=
    Text.replace_append_of_head_notMem hx.open_notMem _
  rw [mentionsChars, hcopy, replace_escaped_placeholder_append hname]
  exact Text.occursIn_append_append placeholder_ne_nil x _

/-- A placeholder behind an outside character is mentioned. -/
theorem mentionsChars_append_cons (hname : IsName name) {c : Char} (hc : IsOutside name c)
    (x y : List Char) : mentionsChars (x ++ c :: (placeholder name ++ y)) name = true := by
  rw [mentionsChars, Text.replace_append_cons escaped_ne_nil hc.notMem_escaped,
    replace_escaped_placeholder_append hname]
  have h : Text.occursIn (placeholder name) ((Text.replace (escaped name) [] x ++ [c]) ++
      (placeholder name ++ Text.replace (escaped name) [] y)) = true :=
    Text.occursIn_append_append placeholder_ne_nil _ _
  simpa using h

end

/-! ### Places -/

/-- Whether a placeholder remains in a template once its escapes are set aside. -/
def hasPlace (template name : String) : Bool :=
  Text.occursIn (placeholder name.toList)
    (Text.replace (escaped name.toList) (aside name.toList) template.toList)

/-- A template with a place mentions the placeholder. -/
theorem mentions_of_hasPlace {template name : String} (hname : IsName name.toList)
    (h : hasPlace template name = true) : mentions template name = true := by
  refine Text.occursIn_replace_nil ?_ ?_ h
  · simpa using hname.open_notMem
  · simpa using hname.mark_notMem

/-- **A template has no place exactly when no value shows in it**: it is then filled in the
same way by all values. -/
theorem hasPlace_eq_false_iff {template name : String} (hname : IsName name.toList) :
    hasPlace template name = false ↔
      ∀ v w : String, fill template name v = fill template name w := by
  constructor
  · intro h v w
    rw [hasPlace] at h
    simp only [fill, fillChars, Text.replace_eq_self h]
  · intro h
    cases hplace : hasPlace template name with
    | false => rfl
    | true =>
        obtain ⟨x, y, hxy⟩ := Text.exists_replace_eq placeholder_ne_nil hplace
        have hopen : '{' ∉ aside name.toList := by simpa [aside] using hname.open_notMem
        have hclose : '}' ∉ aside name.toList := by simpa [aside] using hname.close_notMem
        -- A single brace is no part of a mark, so it is still there when the escapes return.
        have hfill := congrArg String.toList (h (String.ofList ['{']) (String.ofList ['}']))
        simp only [fill, fillChars, hxy, String.toList_ofList, List.cons_append,
          List.nil_append, Text.replace_append_cons aside_ne_nil hopen,
          Text.replace_append_cons aside_ne_nil hclose] at hfill
        have hbrace := List.append_cancel_left hfill
        simp at hbrace

/-! ### Templates around a placeholder for filters -/

/-- Values whose last character ends every mark of an escape that the value could open. -/
def IsClosed (value : String) : Prop :=
  ∃ v d, value.toList = v ++ [d] ∧ d ∉ aside filters.toList

theorem toList_filters_placeholder : "{filters}".toList = placeholder filters.toList := by
  decide

/-- The placeholder for filters on its own is its value. -/
theorem fill_filters {value : String} (hvalue : IsClosed value) :
    (fill "{filters}" filters value).toList = restore filters.toList value.toList := by
  obtain ⟨v, d, hv, hd⟩ := hvalue
  have h := @fillChars_placeholder_append _ isName_filters v d hd []
  rw [List.append_nil] at h
  rw [fill, String.toList_ofList, toList_filters_placeholder, hv, h]
  simp [fillChars, Text.replace, Text.replaceFrom]

/-- A value without marks stands for the placeholder as it is. -/
theorem fill_filters_eq_self {value : String} (hvalue : IsClosed value)
    (hmark : '\x01' ∉ value.toList) : fill "{filters}" filters value = value := by
  rw [← String.toList_inj, fill_filters hvalue, restore_eq_self hmark]

/-- A placeholder for filters is filled on its own, and what follows is filled behind it. -/
theorem fillChars_filters_append {value : String} (hvalue : IsClosed value)
    (y : List Char) :
    fillChars ("{filters}".toList ++ y) filters.toList value.toList =
      (fill "{filters}" filters value).toList ++ fillChars y filters.toList value.toList := by
  rw [fill_filters hvalue, toList_filters_placeholder]
  obtain ⟨v, d, hv, hd⟩ := hvalue
  rw [hv]
  exact fillChars_placeholder_append isName_filters hd y

/-- Between plain texts, a placeholder for filters is replaced and nothing else changes. -/
theorem fill_around {pre post value : String} (hpre : IsPlain pre.toList)
    (hpost : IsPlain post.toList) (hvalue : IsClosed value) :
    fill (pre ++ "{filters}" ++ post) filters value =
      pre ++ fill "{filters}" filters value ++ post := by
  rw [← String.toList_inj]
  simp only [fill.eq_1 (pre ++ _ ++ _), String.toList_ofList, String.toList_append,
    List.append_assoc, fillChars_plain_append hpre, fillChars_filters_append hvalue,
    fillChars_plain hpost]

/-- A placeholder for filters behind plain text is mentioned. -/
theorem mentions_around {pre : String} (hpre : IsPlain pre.toList) (post : String) :
    mentions (pre ++ "{filters}" ++ post) filters = true := by
  simp only [mentions, String.toList_append, List.append_assoc, toList_filters_placeholder]
  exact mentionsChars_plain_append isName_filters hpre post.toList

/-- The texts on both sides of a blank are filled independently. -/
theorem fill_append_blank (x y value : String) :
    fill (x ++ " " ++ y) filters value =
      fill x filters value ++ " " ++ fill y filters value := by
  rw [← String.toList_inj]
  have hblank : " ".toList = [' '] := rfl
  simp only [fill, String.toList_ofList, String.toList_append, hblank, List.append_assoc,
    List.cons_append, List.nil_append, fillChars_append_cons isOutside_filters_blank]

/-- A placeholder for filters is filled on its own, whatever stands behind it. -/
theorem fill_filters_append {value : String} (hvalue : IsClosed value) (y : String) :
    fill ("{filters}" ++ y) filters value =
      fill "{filters}" filters value ++ fill y filters value := by
  rw [← String.toList_inj, String.toList_append, fill.eq_1 ("{filters}" ++ y),
    fill.eq_1 y, String.toList_ofList, String.toList_ofList, String.toList_append,
    fillChars_filters_append hvalue]

/-- A placeholder for filters behind a blank is mentioned, whatever stands around it. -/
theorem mentions_behind_blank (x y : String) :
    mentions (x ++ " " ++ ("{filters}" ++ y)) filters = true := by
  have hblank : " ".toList = [' '] := rfl
  simp only [mentions, String.toList_append, hblank, List.append_assoc,
    toList_filters_placeholder, List.cons_append, List.nil_append]
  exact mentionsChars_append_cons isName_filters isOutside_filters_blank x.toList y.toList

end RealmDirectory.Template
