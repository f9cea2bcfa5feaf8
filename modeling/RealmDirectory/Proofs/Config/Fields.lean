import RealmDirectory.Config.Form
import RealmDirectory.Proofs.Yaml.Substitution

/-!
# Fields with another text

What a node stands for as a configuration is read field by field. When a text stands in the node
for nothing but passwords, the configuration has the other text for these passwords, and nothing
else in it is different.

## Main definitions

* `Yaml.Node.isOnlyAt`: whether a text stands only where fields of one name have it.
* `Yaml.Carries`: what another text in a node makes of what is read from it.
* `DirectoryConfig.fillPasswords`: a configuration, where passwords are another text.

## Main results

* `Yaml.Node.fields?_substitute`: the fields of a record.
* `Yaml.carries_backend?`, `Yaml.carries_directory?`: the databases and the configuration.
-/

namespace RealmDirectory

/-! ### Other passwords -/

/-- The settings, where the password `r` is `v`. -/
def Backend.fillPassword (r v : String) (b : Backend) : Backend :=
  { b with password := if b.password = some r then some v else b.password }

/-- The realm, where the password `r` is `v`. -/
def RealmConfig.fillPassword (r v : String) (c : RealmConfig) : RealmConfig :=
  { c with database := c.database.fillPassword r v }

/-- The configuration, where the password `r` is `v` in all realms. -/
def DirectoryConfig.fillPasswords (r v : String) (c : DirectoryConfig) : DirectoryConfig :=
  { c with realms := c.realms.map (RealmConfig.fillPassword r v) }

namespace Yaml

/-! ### Where a text stands -/

/-- Whether a node is a certain text, written plainly. -/
def Node.isPlainText (text : String) : Node → Bool
  | .scalar true _ s => s == text
  | _ => false

mutual

/-- Whether a text stands nowhere in a node but where fields of one name have it plainly. -/
def Node.isOnlyAt (name text : String) : Node → Bool
  | .scalar _ _ s => s != text
  | .sequence items => itemsOnlyAt name text items
  | .mapping pairs => pairsOnlyAt name text pairs
  | .endless => true

/-- Whether a text stands nowhere in nodes but where fields of one name have it plainly. -/
def itemsOnlyAt (name text : String) : List Node → Bool
  | [] => true
  | n :: ns => n.isOnlyAt name text && itemsOnlyAt name text ns

/-- Whether a text stands nowhere in pairs but where fields of one name have it plainly. -/
def pairsOnlyAt (name text : String) : List (Node × Node) → Bool
  | [] => true
  | p :: ps =>
      p.1.isOnlyAt name text &&
        (p.1.fieldName? == some name && p.2.isPlainText text || p.2.isOnlyAt name text) &&
        pairsOnlyAt name text ps

end

/-- A field, where a text stands as in a node or is the value of the field itself. -/
def IsOnlyAt (name text : String) (f : String × Node) : Prop :=
  f.1 = name ∧ f.2.isPlainText text = true ∨ f.2.isOnlyAt name text = true

variable {name key : String} {r v : List Char} {n : Node} {names : List String}
  {fields : List (String × Node)} {α : Type}

/-! ### Records -/

/-- A field, where the plain scalar `r` gets the text `v`. -/
def substituteField (r v : List Char) (f : String × Node) : String × Node :=
  (f.1, f.2.substitute r v)

/-- Another scalar stays as it is. -/
theorem Node.substitute_scalar {s : String} (h : s ≠ String.ofList r) (plain : Bool)
    (tag : Option String) : (scalar plain tag s).substitute r v = .scalar plain tag s := by
  cases plain with
  | true => rw [substitute, if_neg h]
  | false => rw [substitute]

theorem Node.fieldName?_substitute (h : n.isOnlyAt name (String.ofList r) = true) :
    (n.substitute r v).fieldName? = n.fieldName? := by
  cases n with
  | scalar plain tag s => rw [substitute_scalar (bne_iff_ne.mp h)]
  | _ => rfl

/-- The fields that pairs stand for. -/
def pairFields? (ps : List (Node × Node)) : Option (List (String × Node)) :=
  ps.mapM fun p => p.1.fieldName?.map fun s => (s, p.2)

theorem pairFields?_cons (p : Node × Node) (ps : List (Node × Node)) :
    pairFields? (p :: ps) = p.1.fieldName?.bind fun s => (pairFields? ps).map ((s, p.2) :: ·) := by
  rw [pairFields?, List.mapM_cons, pairFields?]
  cases p.1.fieldName? with
  | none => rfl
  | some s => cases ps.mapM fun p => p.1.fieldName?.map fun s => (s, p.2) <;> rfl

theorem pairFields?_substitute {ps : List (Node × Node)}
    (h : pairsOnlyAt name (String.ofList r) ps = true) :
    pairFields? (substitutePairs r v ps) =
      (pairFields? ps).map (List.map (substituteField r v)) := by
  induction ps with
  | nil => rfl
  | cons p ps ih =>
      rw [pairsOnlyAt, Bool.and_eq_true, Bool.and_eq_true] at h
      rw [substitutePairs, pairFields?_cons, pairFields?_cons, ih h.2,
        Node.fieldName?_substitute h.1.1]
      cases p.1.fieldName? <;> cases pairFields? ps <;> rfl

theorem isOnlyAt_of_pairFields? {ps : List (Node × Node)}
    (h : pairsOnlyAt name (String.ofList r) ps = true) (hfields : pairFields? ps = some fields) :
    ∀ f ∈ fields, IsOnlyAt name (String.ofList r) f := by
  induction ps generalizing fields with
  | nil =>
      cases hfields
      exact List.forall_mem_nil _
  | cons p ps ih =>
      simp only [pairsOnlyAt, Bool.and_eq_true, Bool.or_eq_true, beq_iff_eq] at h
      rw [pairFields?_cons] at hfields
      obtain ⟨s, hname, hfields⟩ := Option.bind_eq_some_iff.mp hfields
      obtain ⟨more, hmore, rfl⟩ := Option.map_eq_some_iff.mp hfields
      rw [hname] at h
      exact List.forall_mem_cons.mpr
        ⟨h.1.2.imp_left (And.imp_left Option.some.inj), ih h.2 hmore⟩

theorem Node.fields?_scalar (plain : Bool) (tag : Option String) (s : String) :
    (scalar plain tag s).fields? names =
      if (scalar plain tag s).isLeftEmpty then some [] else none := rfl


theorem Node.fields?_mapping (ps : List (Node × Node)) :
    (mapping ps).fields? names = (pairFields? ps).filter fun fields =>
      decide ((fields.map Prod.fst).filter names.contains).Nodup := by
  rw [fields?, pairFields?]
  cases ps.mapM fun p => p.1.fieldName?.map fun s => (s, p.2) with
  | none => rfl
  | some fields => simp [Option.filter]

/-- **The fields of a record** have the other text as their values have it, and their names are the
same. -/
theorem Node.fields?_substitute (h : n.isOnlyAt name (String.ofList r) = true) :
    (n.substitute r v).fields? names = (n.fields? names).map (List.map (substituteField r v)) := by
  cases n with
  | scalar plain tag s =>
      rw [substitute_scalar (bne_iff_ne.mp h), fields?_scalar]
      split <;> rfl
  | mapping ps =>
      rw [substitute, fields?_mapping, fields?_mapping, pairFields?_substitute h]
      cases pairFields? ps with
      | none => rfl
      | some fields =>
          have hnames : (fields.map (substituteField r v)).map Prod.fst = fields.map Prod.fst := by
            rw [List.map_map]
            rfl
          simp only [Option.map_some, Option.filter, hnames]
          split <;> rfl
  | _ => rfl

theorem Node.isOnlyAt_of_fields? (h : n.isOnlyAt name (String.ofList r) = true)
    (hfields : n.fields? names = some fields) :
    ∀ f ∈ fields, IsOnlyAt name (String.ofList r) f := by
  cases n with
  | mapping ps =>
      rw [fields?_mapping, Option.filter_eq_some_iff] at hfields
      exact isOnlyAt_of_pairFields? h hfields.1
  | scalar plain tag s =>
      rw [fields?_scalar] at hfields
      split at hfields <;> cases hfields
      exact List.forall_mem_nil _
  | _ => cases hfields

/-! ### Reading values -/

/-- What is read from a node with another text is made by a function of what was read without. -/
def Carries (name : String) (r v : List Char) (read : Node → Option α) (g : α → α) : Prop :=
  ∀ n, n.isOnlyAt name (String.ofList r) = true → read (n.substitute r v) = (read n).map g

/-- What is read from scalars only is the same. -/
theorem carries_of_scalar {read : Node → Option α} (hitems : ∀ ns, read (.sequence ns) = none)
    (hpairs : ∀ ps, read (.mapping ps) = none) : Carries name r v read id := by
  intro n h
  rw [Option.map_id_fun, id]
  cases n with
  | scalar plain tag s => rw [Node.substitute_scalar (bne_iff_ne.mp h)]
  | sequence ns => rw [Node.substitute, hitems, hitems]
  | mapping ps => rw [Node.substitute, hpairs, hpairs]
  | endless => rw [Node.substitute]

theorem carries_text? : Carries name r v yamlForm.text? id :=
  carries_of_scalar (fun _ => rfl) fun _ => rfl

theorem carries_optionalText? : Carries name r v yamlForm.optionalText? id :=
  carries_of_scalar (fun _ => rfl) fun _ => rfl

theorem carries_flag? : Carries name r v yamlForm.flag? id :=
  carries_of_scalar (fun _ => rfl) fun _ => rfl

theorem carries_number? (bound : Nat) : Carries name r v (yamlForm.number? bound) id :=
  carries_of_scalar (fun _ => rfl) fun _ => rfl

/-- What is read from the items of a list is made item by item. -/
theorem Carries.items {read : Node → Option α} {g : α → α} (h : Carries name r v read g) :
    Carries name r v (fun n => (yamlForm.items? n).bind fun ns => ns.mapM read) (List.map g) := by
  intro n hn
  have hitems (ns : List Node) (hns : itemsOnlyAt name (String.ofList r) ns = true) :
      (substituteItems r v ns).mapM read = (ns.mapM read).map (List.map g) := by
    induction ns with
    | nil => rfl
    | cons n ns ih =>
        rw [itemsOnlyAt, Bool.and_eq_true] at hns
        rw [substituteItems, List.mapM_cons, List.mapM_cons, h n hns.1, ih hns.2]
        cases read n with
        | none => rfl
        | some a => cases ns.mapM read <;> rfl
  cases n with
  | sequence ns => exact hitems ns hn
  | scalar plain tag s =>
      have hempty : yamlForm.items? (.scalar plain tag s) =
          if (Node.scalar plain tag s).isLeftEmpty then some [] else none := rfl
      simp only [Node.substitute_scalar (bne_iff_ne.mp hn), hempty]
      split <;> rfl
  | _ => rfl

/-! ### Reading fields -/

theorem lookup_substituteField (fields : List (String × Node)) (key : String) :
    (fields.map (substituteField r v)).lookup key =
      (fields.lookup key).map (Node.substitute r v) := by
  induction fields with
  | nil => rfl
  | cons f fields ih =>
      rw [List.map_cons, List.lookup_cons, List.lookup_cons, ih, substituteField]
      cases key == f.1 <;> rfl

/-- A field of another name does not have the text. -/
theorem isOnlyAt_of_lookup (hfields : ∀ f ∈ fields, IsOnlyAt name (String.ofList r) f)
    (hkey : key ≠ name) (hn : fields.lookup key = some n) :
    n.isOnlyAt name (String.ofList r) = true := by
  obtain ⟨before, after, rfl, -⟩ := List.lookup_eq_some_iff.mp hn
  exact (hfields (key, n) (by simp)).resolve_left fun h => hkey h.1

theorem Carries.required {read : Node → Option α} {g : α → α} (h : Carries name r v read g)
    (hfields : ∀ f ∈ fields, IsOnlyAt name (String.ofList r) f) (hkey : key ≠ name) :
    Form.required read (fields.map (substituteField r v)) key =
      (Form.required read fields key).map g := by
  rw [Form.required, Form.required, lookup_substituteField]
  cases hn : fields.lookup key with
  | none => rfl
  | some n => exact h n (isOnlyAt_of_lookup hfields hkey hn)

theorem Carries.optional {read : Node → Option α} {g : α → α} (h : Carries name r v read g)
    (hfields : ∀ f ∈ fields, IsOnlyAt name (String.ofList r) f) (hkey : key ≠ name) {usual : α}
    (husual : g usual = usual) :
    Form.optional read (fields.map (substituteField r v)) key usual =
      (Form.optional read fields key usual).map g := by
  rw [Form.optional, Form.optional, lookup_substituteField]
  cases hn : fields.lookup key with
  | none => rw [Option.map_none, Option.map_some, husual]
  | some n => exact h n (isOnlyAt_of_lookup hfields hkey hn)

/-- The same values are read from fields that do not have the text. -/
theorem Carries.required_eq {read : Node → Option α} (h : Carries name r v read id)
    (hfields : ∀ f ∈ fields, IsOnlyAt name (String.ofList r) f) (hkey : key ≠ name) :
    Form.required read (fields.map (substituteField r v)) key = Form.required read fields key := by
  rw [h.required hfields hkey, Option.map_id_fun, id]

theorem Carries.optional_eq {read : Node → Option α} (h : Carries name r v read id)
    (hfields : ∀ f ∈ fields, IsOnlyAt name (String.ofList r) f) (hkey : key ≠ name) (usual : α) :
    Form.optional read (fields.map (substituteField r v)) key usual =
      Form.optional read fields key usual := by
  rw [h.optional hfields hkey rfl, Option.map_id_fun, id]

/-- What is read from the fields of a record is made of what was read without the text. -/
theorem carries_record {read : List (String × Node) → Option α} {g : α → α}
    (hread : ∀ fields, (∀ f ∈ fields, IsOnlyAt name (String.ofList r) f) →
      read (fields.map (substituteField r v)) = (read fields).map g) :
    Carries name r v (fun n => do read (← yamlForm.fields? names n)) g := by
  intro n h
  show ((n.substitute r v).fields? names).bind read = ((n.fields? names).bind read).map g
  rw [Node.fields?_substitute h]
  cases hfields : n.fields? names with
  | none => rfl
  | some fields => exact hread fields (Node.isOnlyAt_of_fields? h hfields)

/-! ### Passwords -/

/-- Whether a plain scalar with a text stands for nothing. -/
def isNullText (s : String) : Bool := s.isEmpty || nullTexts.contains s

/-- A plain scalar with another text stands for the text, unless it is tagged as nothing. -/
theorem optionalText?_of_not_null {s : String} (hs : isNullText s = false) (tag : Option String) :
    optionalText? true tag s = if tag = some nullTag then none else some (some s) := by
  have hnull : nullTexts.contains s = false := (Bool.or_eq_false_iff.mp hs).2
  cases tag with
  | none => rw [optionalText?, if_neg (by rw [← isNullText, hs]; exact Bool.false_ne_true)]; rfl
  | some tag => simp only [optionalText?, hnull, Option.some.injEq, Bool.false_eq_true, if_false]

/-- A scalar stands for no text but its own. -/
theorem eq_of_optionalText? {plain : Bool} {tag : Option String} {s s' : String}
    (h : optionalText? plain tag s = some (some s')) : s' = s := by
  unfold optionalText? at h
  split at h
  · cases h
    rfl
  · split at h
    · split at h <;> cases h
    · cases h
      rfl
  · split at h <;> cases h
    rfl

/-- A value that may stand for nothing, where its text may be another one. -/
theorem optionalText?_substitute (hr : isNullText (String.ofList r) = false)
    (hv : isNullText (String.ofList v) = false)
    (h : n.isPlainText (String.ofList r) = true ∨ n.isOnlyAt name (String.ofList r) = true) :
    yamlForm.optionalText? (n.substitute r v) = (yamlForm.optionalText? n).map fun s =>
      if s = some (String.ofList r) then some (String.ofList v) else s := by
  rcases h with hplain | honly
  · cases n with
    | scalar plain tag s =>
        cases plain with
        | false => cases hplain
        | true =>
            obtain rfl : s = String.ofList r := beq_iff_eq.mp hplain
            rw [Node.substitute, if_pos rfl]
            show optionalText? true tag _ = (optionalText? true tag _).map _
            rw [optionalText?_of_not_null hr, optionalText?_of_not_null hv]
            split
            · rfl
            · rw [Option.map_some, if_pos rfl]
    | _ => cases hplain
  · have hne : yamlForm.optionalText? n ≠ some (some (String.ofList r)) := by
      cases n with
      | scalar plain tag s =>
          exact fun hread => bne_iff_ne.mp honly (eq_of_optionalText? hread).symm
      | _ =>
          intro hread
          cases hread
    rw [carries_optionalText? n honly, Option.map_id_fun, id]
    cases hread : yamlForm.optionalText? n with
    | none => rfl
    | some s => rw [Option.map_some, if_neg fun heq => hne (hread.trans (congrArg some heq))]

/-- **Passwords** that were the text are the other one. -/
theorem optional_password (hr : isNullText (String.ofList r) = false)
    (hv : isNullText (String.ofList v) = false)
    (hfields : ∀ f ∈ fields, IsOnlyAt name (String.ofList r) f) (key : String) :
    Form.optional yamlForm.optionalText? (fields.map (substituteField r v)) key none =
      (Form.optional yamlForm.optionalText? fields key none).map fun s =>
        if s = some (String.ofList r) then some (String.ofList v) else s := by
  rw [Form.optional, Form.optional, lookup_substituteField]
  cases hn : fields.lookup key with
  | none => simp
  | some n =>
      obtain ⟨before, after, rfl, -⟩ := List.lookup_eq_some_iff.mp hn
      exact optionalText?_substitute hr hv ((hfields (key, n) (by simp)).imp_left And.right)

/-! ### Records with passwords -/

theorem carries_backend? (hr : isNullText (String.ofList r) = false)
    (hv : isNullText (String.ofList v) = false) :
    Carries "password" r v yamlForm.backend?
      (Backend.fillPassword (String.ofList r) (String.ofList v)) := by
  refine carries_record fun fields hfields => ?_
  rw [carries_text?.required_eq hfields (by decide), carries_text?.required_eq hfields (by decide),
    carries_optionalText?.optional_eq hfields (by decide), optional_password hr hv hfields,
    (carries_number? _).optional_eq hfields (by decide),
    (carries_number? _).optional_eq hfields (by decide)]
  simp only [Option.bind_eq_bind, Option.map_bind, Option.bind_map, Function.comp_def,
    Option.map_some, Backend.fillPassword]

theorem carries_queries? : Carries "password" r v yamlForm.queries? id := by
  refine carries_record fun fields hfields => ?_
  have htexts : Carries "password" r v
      (fun n => (yamlForm.items? n).bind fun ns => ns.mapM yamlForm.text?) (List.map id) :=
    carries_text?.items
  rw [List.map_id_fun] at htexts
  simp (disch := decide) only [carries_text?.optional_eq hfields, htexts.optional_eq hfields,
    Option.bind_eq_bind, Option.map_id_fun, id]

theorem carries_server? : Carries "password" r v yamlForm.server? id := by
  refine carries_record fun fields hfields => ?_
  simp (disch := decide) only [carries_text?.optional_eq hfields,
    (carries_number? _).optional_eq hfields, Option.map_id_fun, id]

theorem carries_realm? (hr : isNullText (String.ofList r) = false)
    (hv : isNullText (String.ofList v) = false) :
    Carries "password" r v yamlForm.realm?
      (RealmConfig.fillPassword (String.ofList r) (String.ofList v)) := by
  refine carries_record fun fields hfields => ?_
  rw [carries_text?.required_eq hfields (by decide),
    carries_optionalText?.optional_eq hfields (by decide),
    (carries_backend? hr hv).required hfields (by decide),
    carries_queries?.optional_eq hfields (by decide),
    carries_flag?.optional_eq hfields (by decide), carries_flag?.optional_eq hfields (by decide)]
  simp only [Option.bind_eq_bind, Option.map_bind, Option.bind_map, Function.comp_def,
    Option.map_some, RealmConfig.fillPassword]

/-- **The configuration of a node with another text** has this text for its passwords, and nothing
else in it is different. -/
theorem carries_directory? (hr : isNullText (String.ofList r) = false)
    (hv : isNullText (String.ofList v) = false) :
    Carries "password" r v yamlForm.directory?
      (DirectoryConfig.fillPasswords (String.ofList r) (String.ofList v)) := by
  refine carries_record fun fields hfields => ?_
  have hrealms : "realms" ≠ "password" := by decide
  rw [carries_server?.optional_eq hfields (by decide)]
  simp only [Option.bind_eq_bind, (carries_realm? hr hv).items.required hfields hrealms,
    Option.map_bind, Option.bind_map, Function.comp_def, Option.map_some,
    DirectoryConfig.fillPasswords]

end Yaml

end RealmDirectory
