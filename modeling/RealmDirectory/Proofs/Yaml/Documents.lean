import RealmDirectory.Proofs.Yaml.Substitution

/-!
# Documents with another text

All that reads a node gives the node with another text for a scalar when it reads the tokens with
this text. The readers call each other with less fuel, so that this is one induction over all of
them together.

## Main definitions

* `Builder.Keeps`: with some fuel, all readers keep to this.

## Main results

* `Builder.keeps`: they do with any fuel.
* `Builder.follows_document`: so does the reader of a document.
* `parse_fill`: the node of a text in which another scalar stands.
-/

namespace RealmDirectory.Yaml

namespace Builder

variable {α : Type} {r v : List Char} {fuel : Nat}

/-! ### Nodes -/

/-- With some fuel, all readers keep to another text for a scalar. -/
structure Keeps (r v : List Char) (fuel : Nat) : Prop where
  node : ∀ block flat,
    Follows r v (Node.substitute r v) (node block flat fuel) (node block flat fuel)
  content : ∀ block flat given tag, Follows r v (Node.substitute r v)
    (content block flat given tag fuel) (content block flat given tag fuel)
  nodeUnless : ∀ ends : List Token, ends.any Token.isPlain = false → ∀ block flat,
    Follows r v (Node.substitute r v) (nodeUnless ends block flat fuel)
      (nodeUnless ends block flat fuel)
  blockItems : Follows r v (substituteItems r v) (blockItems fuel) (blockItems fuel)
  flatEntries : Follows r v (substituteItems r v) (flatEntries fuel) (flatEntries fuel)
  blockPairs : Follows r v (substitutePairs r v) (blockPairs fuel) (blockPairs fuel)
  flowItems : ∀ first,
    Follows r v (substituteItems r v) (flowItems first fuel) (flowItems first fuel)
  flowPairs : ∀ first,
    Follows r v (substitutePairs r v) (flowPairs first fuel) (flowPairs first fuel)

namespace Keeps

theorem blockItems_succ (h : Keeps r v fuel) : Follows r v (substituteItems r v)
    (Builder.blockItems (fuel + 1)) (Builder.blockItems (fuel + 1)) := by
  rw [Builder.blockItems]
  refine (follows_skipIf rfl).bind fun entry => .ite ?_ ?_
  · refine (h.nodeUnless _ rfl true false).bind fun n => h.blockItems.bind fun ns => ?_
    exact .pure (n :: ns)
  · exact (follows_skipIf rfl).bind fun ended => .ite (.pure []) (.fail _ _)

theorem flatEntries_succ (h : Keeps r v fuel) : Follows r v (substituteItems r v)
    (Builder.flatEntries (fuel + 1)) (Builder.flatEntries (fuel + 1)) := by
  rw [Builder.flatEntries]
  refine (follows_skipIf rfl).bind fun entry => .ite ?_ (.pure [])
  refine (h.nodeUnless _ rfl true false).bind fun n => h.flatEntries.bind fun ns => ?_
  exact .pure (n :: ns)

/-- The value behind a key, or nothing where none is written, with what is done with it. -/
theorem value (hr : r ≠ []) (h : Keeps r v fuel) {g : α → α} {ends : List Token}
    (hends : ends.any Token.isPlain = false) (block flat : Bool) {m₁ m₂ : Node → Reading α}
    (hm : ∀ n, Follows r v g (m₁ n) (m₂ (n.substitute r v))) :
    Follows r v g
      (skipIf .value >>= fun given =>
        if given = true then Builder.nodeUnless ends block flat fuel >>= m₁
        else Pure.pure nothing >>= m₁)
      (skipIf .value >>= fun given =>
        if given = true then Builder.nodeUnless ends block flat fuel >>= m₂
        else Pure.pure nothing >>= m₂) :=
  (follows_skipIf rfl).bind fun _ =>
    .ite ((h.nodeUnless ends hends block flat).bind hm) ((follows_nothing hr).bind hm)

theorem blockPairs_succ (hr : r ≠ []) (h : Keeps r v fuel) : Follows r v (substitutePairs r v)
    (Builder.blockPairs (fuel + 1)) (Builder.blockPairs (fuel + 1)) := by
  rw [Builder.blockPairs]
  refine (follows_skipIf rfl).bind fun key => .ite ?_ ?_
  · refine (h.nodeUnless _ rfl true true).bind fun k => h.value hr rfl true true fun w => ?_
    exact h.blockPairs.bind fun ps => .pure ((k, w) :: ps)
  · exact (follows_skipIf rfl).bind fun ended => .ite (.pure []) (.fail _ _)

theorem flowItems_succ (hr : r ≠ []) (h : Keeps r v fuel) (first : Bool) :
    Follows r v (substituteItems r v) (Builder.flowItems first (fuel + 1))
      (Builder.flowItems first (fuel + 1)) := by
  rw [Builder.flowItems]
  refine (follows_skipIf rfl).bind fun ended => .ite (.pure []) ?_
  refine follows_unless rfl _ fun _ => (follows_skipIf rfl).bind fun key => .ite ?_ ?_
  · refine (h.nodeUnless _ rfl false false).bind fun k => h.value hr rfl false false fun w => ?_
    exact (h.flowItems false).bind fun ns => .pure (.mapping [(k, w)] :: ns)
  · refine (follows_skipIf rfl).bind fun ended => .ite (.pure []) ?_
    exact (h.node false false).bind fun n => (h.flowItems false).bind fun ns => .pure (n :: ns)

theorem flowPairs_succ (hr : r ≠ []) (h : Keeps r v fuel) (first : Bool) :
    Follows r v (substitutePairs r v) (Builder.flowPairs first (fuel + 1))
      (Builder.flowPairs first (fuel + 1)) := by
  rw [Builder.flowPairs]
  refine (follows_skipIf rfl).bind fun ended => .ite (.pure []) ?_
  refine follows_unless rfl _ fun _ => (follows_skipIf rfl).bind fun key => .ite ?_ ?_
  · refine (h.nodeUnless _ rfl false false).bind fun k => h.value hr rfl false false fun w => ?_
    exact (h.flowPairs false).bind fun ps => .pure ((k, w) :: ps)
  · refine (follows_skipIf rfl).bind fun ended => .ite (.pure []) ?_
    refine (h.node false false).bind fun k => (h.flowPairs false).bind fun ps => ?_
    have hpair : substitutePairs r v ((k, nothing) :: ps) =
        (k.substitute r v, nothing) :: substitutePairs r v ps := by
      rw [substitutePairs, nothing, Node.substitute_empty hr]
    rw [← hpair]
    exact .pure ((k, nothing) :: ps)

theorem nodeUnless_succ (hr : r ≠ []) (h : Keeps r v fuel) {ends : List Token}
    (hends : ends.any Token.isPlain = false) (block flat : Bool) :
    Follows r v (Node.substitute r v) (Builder.nodeUnless ends block flat (fuel + 1))
      (Builder.nodeUnless ends block flat (fuel + 1)) := by
  rw [Builder.nodeUnless]
  exact (follows_isNext hends).bind fun ended => .ite (follows_nothing hr) (h.node block flat)

/-- A node behind its properties, with the name that they give it. -/
theorem named (h : Keeps r v fuel) (block flat : Bool) : Follows r v (Node.substitute r v)
    (properties >>= fun p => nameNode p.1 .endless >>= fun _ =>
      Builder.content block flat (p.1.isSome || p.2.isSome) p.2 fuel >>= fun n =>
        nameNode p.1 n >>= fun _ => Pure.pure n)
    (properties >>= fun p => nameNode p.1 .endless >>= fun _ =>
      Builder.content block flat (p.1.isSome || p.2.isSome) p.2 fuel >>= fun n =>
        nameNode p.1 n >>= fun _ => Pure.pure n) :=
  follows_properties.bind fun p => (follows_nameNode p.1 .endless).bind fun _ =>
    (h.content block flat _ p.2).bind fun n => (follows_nameNode p.1 n).bind fun _ => .pure n

theorem node_succ (h : Keeps r v fuel) (block flat : Bool) : Follows r v (Node.substitute r v)
    (Builder.node block flat (fuel + 1)) (Builder.node block flat (fuel + 1)) := by
  rw [Builder.node]
  refine follows_peek.bind fun next => ?_
  rcases next with _ | t
  · exact h.named block flat
  cases t with
  | scalar plain s => cases plain <;> exact h.named block flat
  | «alias» name => exact follows_skip.bind fun _ => follows_aliased name
  | _ => exact h.named block flat

theorem content_succ (hr : r ≠ []) (h : Keeps r v fuel) (block flat given : Bool)
    (tag : Option String) : Follows r v (Node.substitute r v)
      (Builder.content block flat given tag (fuel + 1))
      (Builder.content block flat given tag (fuel + 1)) := by
  rw [Builder.content]
  have hitems {m : Reading (List Node)} (hm : Follows r v (substituteItems r v) m m) :
      Follows r v (Node.substitute r v) (do return Node.sequence (← m))
        (do return Node.sequence (← m)) :=
    hm.bind fun ns => .pure (Node.sequence ns)
  have hpairs {m : Reading (List (Node × Node))} (hm : Follows r v (substitutePairs r v) m m) :
      Follows r v (Node.substitute r v) (do return Node.mapping (← m))
        (do return Node.mapping (← m)) :=
    hm.bind fun ps => .pure (Node.mapping ps)
  have hempty := follows_empty (v := v) hr given tag
  refine follows_peek.bind fun next => ?_
  have hentry := map_substitute_eq_some_iff (r := r) (v := v) (b := .blockEntry) rfl next
  simp only [hentry]
  refine .ite (hitems h.flatEntries) ?_
  rcases next with _ | t
  · exact hempty
  cases t with
  | scalar plain s =>
      cases plain with
      | true =>
          refine follows_skip.bind fun _ => ?_
          have hscalar : (Node.scalar true tag (String.ofList s)).substitute r v =
              .scalar true tag (String.ofList (if s = r then v else s)) := by
            simp only [Node.substitute, String.ofList_inj, apply_ite String.ofList]
          rw [← hscalar]
          exact .pure _
      | false => exact follows_skip.bind fun _ => .pure (Node.scalar false tag (String.ofList s))
  | flowSequence => exact follows_skip.bind fun _ => hitems (h.flowItems true)
  | flowMapping => exact follows_skip.bind fun _ => hpairs (h.flowPairs true)
  | blockSequence => exact .ite (.fail _ _) (follows_skip.bind fun _ => hitems h.blockItems)
  | blockMapping => exact .ite (.fail _ _) (follows_skip.bind fun _ => hpairs h.blockPairs)
  | _ => exact hempty

theorem zero : Keeps r v 0 where
  node _ _ := .fail _ _
  content _ _ _ _ := .fail _ _
  nodeUnless _ _ _ _ := .fail _ _
  blockItems := .fail _ _
  flatEntries := .fail _ _
  blockPairs := .fail _ _
  flowItems _ := .fail _ _
  flowPairs _ := .fail _ _

theorem succ (hr : r ≠ []) (h : Keeps r v fuel) : Keeps r v (fuel + 1) where
  node := h.node_succ
  content := h.content_succ hr
  nodeUnless _ hends := h.nodeUnless_succ hr hends
  blockItems := h.blockItems_succ
  flatEntries := h.flatEntries_succ
  blockPairs := h.blockPairs_succ hr
  flowItems := h.flowItems_succ hr
  flowPairs := h.flowPairs_succ hr

end Keeps

/-- **All readers of nodes keep to it**, with any fuel. -/
theorem keeps (hr : r ≠ []) (fuel : Nat) : Keeps r v fuel := by
  induction fuel with
  | zero => exact .zero
  | succ fuel ih => exact ih.succ hr

/-! ### Documents -/

theorem follows_directives (fuel : Nat) : Follows r v id (directives fuel) (directives fuel) := by
  induction fuel with
  | zero => exact .pure false
  | succ fuel ih =>
      rw [directives]
      have hdiscard : Follows r v id (discard (directives fuel)) (discard (directives fuel)) :=
        show Follows r v id (directives fuel >>= fun _ => Pure.pure ())
          (directives fuel >>= fun _ => Pure.pure ()) from ih.bind fun _ => .pure ()
      have hmore : Follows r v id (do discard (directives fuel); return true)
          (do discard (directives fuel); return true) := hdiscard.bind fun _ => .pure true
      refine follows_peek.bind fun next => ?_
      rcases next with _ | t
      · exact .pure false
      cases t with
      | scalar plain s => cases plain <;> exact .pure false
      | version major minor => exact follows_skip.bind fun _ => hmore
      | tagHandle handle expansion =>
          refine follows_skip.bind fun _ => Follows.bind (g := id) ?_ fun _ => hmore
          exact follows_modify fun _ => rfl
      | _ => exact .pure false

theorem follows_skipEnds (fuel : Nat) : Follows r v id (skipEnds fuel) (skipEnds fuel) := by
  induction fuel with
  | zero => exact .pure ()
  | succ fuel ih => exact (follows_skipIf rfl).bind fun _ => .ite ih (.pure ())

/-- **The only document is read to the same node**, but for the scalar. -/
theorem follows_document (hr : r ≠ []) (fuel : Nat) :
    Follows r v (Node.substitute r v) (document fuel) (document fuel) := by
  refine (follows_directives fuel).bind fun directed => ?_
  refine (follows_skipIf rfl).bind fun started => .ite (.fail _ _) ?_
  have hbehind (n : Node) : Follows r v (Node.substitute r v)
      (do
        skipEnds fuel
        if (← peek).isSome then fail .secondDocument else return n)
      (do
        skipEnds fuel
        if (← peek).isSome then fail .secondDocument else return n.substitute r v) := by
    refine (follows_skipEnds fuel).bind fun _ => follows_peek.bind fun next => ?_
    rw [Option.isSome_map]
    exact .ite (.fail _ _) (.pure n)
  refine follows_peek.bind fun next => (follows_isNext rfl).bind fun marked => ?_
  rw [Option.isNone_map]
  exact .ite ((follows_nothing hr).bind hbehind)
    (((keeps hr fuel).node true false).bind hbehind)

end Builder

/-! ### Texts -/

variable {r v before y : List Char} {ts : List Token} {n : Node}

theorem map_substitute_of_not_mem (h : .scalar true r ∉ ts) :
    ts.map (Token.substitute r v) = ts := by
  refine (List.map_congr_left fun b hb => ?_).trans (List.map_id ts)
  exact Token.substitute_of_ne fun heq => h (heq ▸ hb)

/-- Tokens with another text for a scalar are read to the node with this text. -/
theorem run_document_map (hr : r ≠ []) (fuel : Nat) {b : Builder}
    (h : (Builder.document fuel).run { rest := ts } = .ok (n, b)) (v : List Char) :
    (Builder.document fuel).run { rest := ts.map (Token.substitute r v) } =
      .ok (n.substitute r v, b.substitute r v) :=
  Builder.follows_document hr fuel { rest := ts } n b h

/-- A scalar of the node was a token. -/
theorem mem_of_run_document (hr : r ≠ []) {fuel : Nat} {b : Builder}
    (h : (Builder.document fuel).run { rest := ts } = .ok (n, b)) (hn : n.substitute r v ≠ n) :
    .scalar true r ∈ ts := by
  by_contra hmem
  have hsame := run_document_map hr fuel h v
  rw [map_substitute_of_not_mem hmem, h] at hsame
  exact hn (Prod.mk.inj (Except.ok.inj hsame)).1.symm

/-- **The node of a text in which another scalar stands**: when a marker at the end of a line is a
scalar of the node, any text in its place that is a plain scalar is read there as it is, and nothing
else in the node is different. -/
theorem parse_fill {w : List Char} (hr : IsMarker r) (hv : IsPlainText v)
    (hbefore : endsBlank before = true) (hy : endsLine y = true) (hfirst : ¬ r <:+: before)
    (hlast : ¬ r <:+: y) (hn : n.substitute r w ≠ n)
    (hparse : parse (String.ofList (before ++ r ++ y)) = .ok n) :
    parse (String.ofList (before ++ v ++ y)) = .ok (n.substitute r v) := by
  have hne : r ≠ [] := by
    obtain ⟨r', rfl, -⟩ := hr.opens
    exact List.cons_ne_nil _ _
  rw [parse, String.toList_ofList] at hparse ⊢
  obtain ⟨ts, htokens, hparse⟩ := exists_of_bind_ok hparse
  obtain ⟨⟨n', b⟩, hrun, heq⟩ := exists_of_bind_ok hparse
  obtain rfl : n' = n := Except.ok.inj heq
  rw [tokens_fill hr hv hbefore hy hfirst hlast (mem_of_run_document hne hrun hn) htokens, ok_bind,
    List.length_map, run_document_map hne _ hrun v]
  rfl

end RealmDirectory.Yaml
