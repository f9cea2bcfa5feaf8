import RealmDirectory.Proofs.Yaml.Filling
import RealmDirectory.Yaml.Node

/-!
# Nodes with another text

The nodes are read from tokens without a look at the texts of scalars. So when plain scalars have
another text in the tokens, they have it in the node as well, and nothing else is different. Here
this is said of single steps, and of steps one behind the other.

## Main definitions

* `Node.substitute`: a node, where a plain scalar gets another text.
* `Builder.Follows`: steps that keep to this.

## Main results

* `Builder.Follows.bind`: steps one behind the other do when each of them does.
* `Builder.follows_skipIf`: signs are found in the same places.
* `Builder.follows_properties`, `Builder.follows_aliased`: tags stay the same, and names stand for
  nodes with the other text.
-/

namespace RealmDirectory.Yaml

/-! ### Nodes -/

mutual

/-- A node, where the plain scalar `r` gets the text `v`. -/
def Node.substitute (r v : List Char) : Node → Node
  | .scalar true tag s => .scalar true tag (if s = String.ofList r then String.ofList v else s)
  | .scalar false tag s => .scalar false tag s
  | .sequence items => .sequence (substituteItems r v items)
  | .mapping pairs => .mapping (substitutePairs r v pairs)
  | .endless => .endless

/-- Nodes, where the plain scalar `r` gets the text `v`. -/
def substituteItems (r v : List Char) : List Node → List Node
  | [] => []
  | n :: ns => n.substitute r v :: substituteItems r v ns

/-- Pairs of nodes, where the plain scalar `r` gets the text `v`. -/
def substitutePairs (r v : List Char) : List (Node × Node) → List (Node × Node)
  | [] => []
  | p :: ps => (p.1.substitute r v, p.2.substitute r v) :: substitutePairs r v ps

end

/-- An empty scalar stays empty. -/
theorem Node.substitute_empty {r v : List Char} (hr : r ≠ []) (tag : Option String) :
    (Node.scalar true tag "").substitute r v = .scalar true tag "" := by
  rw [Node.substitute, if_neg]
  intro h
  exact hr (String.ofList_inj.mp (h.symm.trans String.ofList_nil.symm))

/-- Whether a token is a plain scalar. -/
def Token.isPlain : Token → Bool
  | .scalar true _ => true
  | _ => false

/-- A sign stays what it is, and nothing becomes one. -/
theorem Token.substitute_eq_iff {r v : List Char} {a b : Token} (hb : b.isPlain = false) :
    a.substitute r v = b ↔ a = b := by
  unfold substitute
  split
  next s =>
    constructor
    · rintro rfl
      cases hb
    · rintro rfl
      cases hb
  · exact Iff.rfl

namespace Builder

variable {α β γ δ : Type} {r v : List Char}

/-- The state of reading nodes, where the plain scalar `r` gets the text `v`. -/
def substitute (r v : List Char) (b : Builder) : Builder :=
  { b with
    rest := b.rest.map (Token.substitute r v)
    anchors := b.anchors.map fun p => (p.1, p.2.substitute r v) }

/-- A step gives in the state with another text what corresponds to the result of a step. -/
def Follows (r v : List Char) (g : α → β) (m₁ : Reading α) (m₂ : Reading β) : Prop :=
  ∀ b a b', m₁ b = .ok (a, b') → m₂ (b.substitute r v) = .ok (g a, b'.substitute r v)

/-! ### Steps in general -/

theorem Follows.bind {g : α → β} {h : γ → δ} {m₁ : Reading α} {m₂ : Reading β}
    {f₁ : α → Reading γ} {f₂ : β → Reading δ} (hm : Follows r v g m₁ m₂)
    (hf : ∀ a, Follows r v h (f₁ a) (f₂ (g a))) : Follows r v h (m₁ >>= f₁) (m₂ >>= f₂) := by
  intro b c b' hread
  obtain ⟨⟨a, b₁⟩, hfirst, hnext⟩ :=
    exists_of_bind_ok (show (m₁ b >>= fun p => f₁ p.1 p.2) = _ from hread)
  show (m₂ (b.substitute r v) >>= fun p => f₂ p.1 p.2) = _
  rw [hm b a b₁ hfirst]
  exact hf a b₁ c b' hnext

theorem Follows.pure {h : γ → δ} (a : γ) : Follows r v h (Pure.pure a) (Pure.pure (h a)) := by
  intro b c b' hread
  cases hread
  rfl

theorem Follows.fail {h : γ → δ} (f f' : Fault) : Follows r v h (fail f) (fail f') := by
  intro b c b' hread
  cases hread

theorem Follows.ite {h : γ → δ} {p : Prop} [Decidable p] {m₁ s₁ : Reading γ} {m₂ s₂ : Reading δ}
    (hm : Follows r v h m₁ m₂) (hs : Follows r v h s₁ s₂) :
    Follows r v h (if p then m₁ else s₁) (if p then m₂ else s₂) := by
  split
  · exact hm
  · exact hs

theorem follows_modify {f : Builder → Builder}
    (hf : ∀ b, (f b).substitute r v = f (b.substitute r v)) :
    Follows r v id (modify f : Reading Unit) (modify f) := by
  intro b a b' hread
  cases hread
  show Except.ok _ = _
  rw [hf]

/-! ### Tokens -/

theorem follows_peek : Follows r v (Option.map (Token.substitute r v)) peek peek := by
  intro b a b' hread
  cases hread
  show Except.ok _ = _
  rw [substitute, List.head?_map]

theorem follows_skip : Follows r v id skip skip := by
  refine follows_modify fun b => ?_
  rw [substitute, substitute, List.map_drop]

/-- Whether a sign comes next is the same. -/
theorem map_substitute_eq_some_iff {b : Token} (hb : b.isPlain = false) (next : Option Token) :
    next.map (Token.substitute r v) = some b ↔ next = some b := by
  cases next with
  | none => exact Iff.rfl
  | some a => rw [Option.map_some, Option.some.injEq, Option.some.injEq, Token.substitute_eq_iff hb]

theorem follows_skipIf {b : Token} (hb : b.isPlain = false) :
    Follows r v id (skipIf b) (skipIf b) := by
  refine follows_peek.bind fun next => ?_
  simp only [map_substitute_eq_some_iff hb]
  exact .ite (follows_skip.bind fun _ => .pure true) (.pure false)

theorem follows_isNext {bs : List Token} (hbs : bs.any Token.isPlain = false) :
    Follows r v id (isNext bs) (isNext bs) := by
  refine follows_peek.bind fun next => ?_
  have hnext : (next.map (Token.substitute r v)).any bs.contains = next.any bs.contains := by
    cases next with
    | none => rfl
    | some a =>
        rw [Option.map_some, Option.any_some, Option.any_some]
        refine Bool.eq_iff_iff.mpr ?_
        rw [List.contains_iff_mem, List.contains_iff_mem]
        have hsign (b : Token) (hb : b ∈ bs) : b.isPlain = false := by
          simpa using List.any_eq_false.mp hbs b hb
        constructor
        · intro hmem
          rwa [(Token.substitute_eq_iff (hsign _ hmem)).mp rfl]
        · intro hmem
          rwa [(Token.substitute_eq_iff (hsign a hmem)).mpr rfl]
  rw [hnext]
  exact .pure _

theorem follows_expect {b : Token} (hb : b.isPlain = false) (f : Fault) :
    Follows r v id (expect b f) (expect b f) :=
  (follows_skipIf hb).bind fun _ => .ite (.pure ()) (.fail f f)

theorem follows_unless {g : α → α} {first : Bool} {b : Token} (hb : b.isPlain = false) (f : Fault)
    {m₁ m₂ : Unit → Reading α} (hm : ∀ u, Follows r v g (m₁ u) (m₂ u)) :
    Follows r v g (if first = true then m₁ () else expect b f >>= m₁)
      (if first = true then m₂ () else expect b f >>= m₂) :=
  .ite (hm ()) ((follows_expect hb f).bind hm)

/-! ### Properties -/

theorem follows_get : Follows r v (substitute r v) (get : Reading Builder) get := by
  intro b a b' hread
  cases hread
  rfl

theorem follows_anchor? : Follows r v id anchor? anchor? := by
  refine follows_peek.bind fun next => ?_
  rcases next with _ | t
  · exact .pure none
  cases t with
  | scalar plain s => cases plain <;> exact .pure none
  | anchor name => exact follows_skip.bind fun _ => .pure (some name)
  | _ => exact .pure none

theorem follows_resolveTag (handle suffix : List Char) :
    Follows r v id (resolveTag handle suffix) (resolveTag handle suffix) := by
  rw [resolveTag]
  refine .ite (.pure _) ?_
  refine follows_get.bind fun b => ?_
  have hhandles : (b.substitute r v).handles = b.handles := rfl
  rw [hhandles]
  cases b.handles.lookup handle with
  | none => exact .fail _ _
  | some expansion => exact .pure _

theorem follows_tag? : Follows r v id tag? tag? := by
  refine follows_peek.bind fun next => ?_
  rcases next with _ | t
  · exact .pure none
  cases t with
  | scalar plain s => cases plain <;> exact .pure none
  | tag handle suffix =>
      refine follows_skip.bind fun _ => (follows_resolveTag handle suffix).bind fun s => ?_
      exact .pure (some s)
  | _ => exact .pure none

theorem follows_properties : Follows r v id properties properties := by
  rw [properties]
  refine follows_anchor?.bind fun anchor => follows_tag?.bind fun tag => .ite ?_ (.pure _)
  exact follows_anchor?.bind fun anchor => .pure (anchor, tag)

theorem follows_nameNode (anchor : Option (List Char)) (n : Node) :
    Follows r v id (nameNode anchor n) (nameNode anchor (n.substitute r v)) := by
  cases anchor with
  | none => exact .pure ()
  | some name =>
      intro b a b' hread
      cases hread
      rfl

theorem follows_aliased (name : List Char) :
    Follows r v (Node.substitute r v) (aliased name) (aliased name) := by
  refine follows_get.bind fun b => ?_
  have hanchors : (b.substitute r v).anchors.lookup name =
      (b.anchors.lookup name).map (Node.substitute r v) := by
    rw [substitute]
    induction b.anchors with
    | nil => rfl
    | cons p anchors ih =>
        rw [List.map_cons, List.lookup_cons, List.lookup_cons, ih]
        split <;> rfl
  rw [hanchors]
  cases b.anchors.lookup name with
  | none => exact .fail _ _
  | some n => exact .pure n

/-! ### Scalars that are left out -/

theorem follows_nothing (hr : r ≠ []) :
    Follows r v (Node.substitute r v) (Pure.pure nothing) (Pure.pure nothing) := by
  have h : Follows r v (Node.substitute r v) (Pure.pure nothing)
      (Pure.pure (nothing.substitute r v)) := .pure nothing
  rwa [nothing, Node.substitute_empty hr] at h

theorem follows_empty (hr : r ≠ []) (given : Bool) (tag : Option String) :
    Follows r v (Node.substitute r v)
      (if given = true then Pure.pure (.scalar true tag "") else fail .expectedNode)
      (if given = true then Pure.pure (.scalar true tag "") else fail .expectedNode) := by
  have h : Follows r v (Node.substitute r v) (Pure.pure (.scalar true tag ""))
      (Pure.pure ((Node.scalar true tag "").substitute r v)) := .pure _
  rw [Node.substitute_empty hr] at h
  exact .ite h (.fail _ _)

end Builder

end RealmDirectory.Yaml
