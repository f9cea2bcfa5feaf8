import RealmDirectory.Yaml.Token

/-!
# Nodes of a document

A document is one node: a scalar, a sequence of nodes, or a mapping of nodes to nodes.
Anchors name nodes, and an alias stands for the node that was named last; inside the node
itself, its name stands for no finite node.

## Main definitions

* `Node`: the nodes.
* `Builder`: the state of reading nodes from tokens.
* `parse`: the node of a text with exactly one document.
-/

namespace RealmDirectory.Yaml

/-- A node of a document. -/
inductive Node where
  /-- A scalar: whether it is written plainly, its tag, and its text. -/
  | scalar (plain : Bool) (tag : Option String) (text : String)
  /-- A sequence of nodes. -/
  | sequence (items : List Node)
  /-- A mapping, with its keys and values in order. -/
  | mapping (pairs : List (Node × Node))
  /-- A node that contains itself. -/
  | endless

instance : Inhabited Node := ⟨.endless⟩

/-- The state of reading nodes. -/
structure Builder where
  /-- The tokens that are left. -/
  rest : List Token
  /-- The nodes that have names, the last named first. -/
  anchors : List (List Char × Node) := []
  /-- What the handles of tags stand for. -/
  handles : List (List Char × List Char) :=
    [(['!'], ['!']), (['!', '!'], "tag:yaml.org,2002:".toList)]

/-- A step of reading nodes. -/
abbrev Reading := StateT Builder (Except Fault)

namespace Builder

/-! ### Tokens -/

/-- The next token. -/
def peek : Reading (Option Token) := return (← get).rest.head?

/-- Passes over the next token. -/
def skip : Reading Unit := modify fun b => { b with rest := b.rest.drop 1 }

/-- Passes over the next token if it is a certain one, and tells whether it was. -/
def skipIf (t : Token) : Reading Bool := do
  if (← peek) = some t then
    skip
    return true
  else return false

/-- Whether the next token is one of some. -/
def isNext (ts : List Token) : Reading Bool := return (← peek).any ts.contains

/-- Fails. -/
def fail {α : Type} (f : Fault) : Reading α := throw f

/-- Passes over the next token, which has to be a certain one. -/
def expect (t : Token) (f : Fault) : Reading Unit := do
  unless ← skipIf t do fail f

/-! ### Properties -/

/-- The text of a tag. -/
def resolveTag (handle suffix : List Char) : Reading String := do
  if handle.isEmpty then return String.ofList suffix
  else
    match (← get).handles.lookup handle with
    | some expansion => return String.ofList (expansion ++ suffix)
    | none => fail .unknownTagHandle

/-- The name of an anchor, if one comes next. -/
def anchor? : Reading (Option (List Char)) := do
  match ← peek with
  | some (.anchor name) =>
      skip
      return some name
  | _ => return none

/-- The text of a tag, if one comes next. -/
def tag? : Reading (Option String) := do
  match ← peek with
  | some (.tag handle suffix) =>
      skip
      return some (← resolveTag handle suffix)
  | _ => return none

/-- An anchor and a tag in either order, as far as they come next. -/
def properties : Reading (Option (List Char) × Option String) := do
  let anchor ← anchor?
  let tag ← tag?
  let anchor ← if anchor.isNone then anchor? else pure anchor
  return (anchor, tag)

/-- Gives a name to a node. -/
def nameNode (anchor : Option (List Char)) (n : Node) : Reading Unit := do
  if let some name := anchor then
    modify fun b => { b with anchors := (name, n) :: b.anchors }

/-- The node that an alias stands for. -/
def aliased (name : List Char) : Reading Node := do
  match (← get).anchors.lookup name with
  | some n => return n
  | none => fail .unknownAnchor

/-- The scalar that stands where nothing is written. -/
def nothing : Node := .scalar true none ""

/-! ### Nodes -/

mutual

/-- Reads a node. `block` tells whether a block may begin here, `flat` whether a sequence
may begin without being indented. -/
def node (block flat : Bool) : Nat → Reading Node
  | 0 => fail .expectedNode
  | fuel + 1 => do
      match ← peek with
      | some (.alias name) =>
          skip
          aliased name
      | _ =>
          let (anchor, tag) ← properties
          nameNode anchor .endless
          let n ← content block flat (anchor.isSome || tag.isSome) tag fuel
          nameNode anchor n
          return n

/-- Reads a node behind its properties. -/
def content (block flat given : Bool) (tag : Option String) : Nat → Reading Node
  | 0 => fail .expectedNode
  | fuel + 1 => do
      let next ← peek
      if flat && next = some .blockEntry then return .sequence (← flatEntries fuel)
      else
        match next with
        | some (.scalar plain text) =>
            skip
            return .scalar plain tag (String.ofList text)
        | some .flowSequence =>
            skip
            return .sequence (← flowItems true fuel)
        | some .flowMapping =>
            skip
            return .mapping (← flowPairs true fuel)
        | some .blockSequence =>
            if !block then fail .expectedNode
            else
              skip
              return .sequence (← blockItems fuel)
        | some .blockMapping =>
            if !block then fail .expectedNode
            else
              skip
              return .mapping (← blockPairs fuel)
        | _ => if given then return .scalar true tag "" else fail .expectedNode

/-- Reads a node, or nothing when one of some tokens comes next. -/
def nodeUnless (ends : List Token) (block flat : Bool) : Nat → Reading Node
  | 0 => fail .expectedNode
  | fuel + 1 => do
      if ← isNext ends then return nothing else node block flat fuel

/-- Reads the entries of an indented sequence. -/
def blockItems : Nat → Reading (List Node)
  | 0 => fail .expectedEntry
  | fuel + 1 => do
      if ← skipIf .blockEntry then
        let n ← nodeUnless [.blockEntry, .blockEnd] true false fuel
        return n :: (← blockItems fuel)
      else if ← skipIf .blockEnd then return []
      else fail .expectedEntry

/-- Reads the entries of a sequence at the column of the keys around it. -/
def flatEntries : Nat → Reading (List Node)
  | 0 => fail .expectedEntry
  | fuel + 1 => do
      if ← skipIf .blockEntry then
        let n ← nodeUnless [.blockEntry, .key, .value, .blockEnd] true false fuel
        return n :: (← flatEntries fuel)
      else return []

/-- Reads the pairs of an indented mapping. -/
def blockPairs : Nat → Reading (List (Node × Node))
  | 0 => fail .expectedKey
  | fuel + 1 => do
      let ends : List Token := [.key, .value, .blockEnd]
      if ← skipIf .key then
        let k ← nodeUnless ends true true fuel
        let v ← if ← skipIf .value then nodeUnless ends true true fuel else pure nothing
        return (k, v) :: (← blockPairs fuel)
      else if ← skipIf .blockEnd then return []
      else fail .expectedKey

/-- Reads the items of a sequence in brackets. -/
def flowItems (first : Bool) : Nat → Reading (List Node)
  | 0 => fail .expectedFlowEnd
  | fuel + 1 => do
      if ← skipIf .flowSequenceEnd then return []
      else
        unless first do expect .flowEntry .expectedFlowEnd
        if ← skipIf .key then
          let k ← nodeUnless [.value, .flowEntry, .flowSequenceEnd] false false fuel
          let v ← if ← skipIf .value then
              nodeUnless [.flowEntry, .flowSequenceEnd] false false fuel
            else pure nothing
          return .mapping [(k, v)] :: (← flowItems false fuel)
        else if ← skipIf .flowSequenceEnd then return []
        else
          let n ← node false false fuel
          return n :: (← flowItems false fuel)

/-- Reads the pairs of a mapping in braces. -/
def flowPairs (first : Bool) : Nat → Reading (List (Node × Node))
  | 0 => fail .expectedFlowEnd
  | fuel + 1 => do
      if ← skipIf .flowMappingEnd then return []
      else
        unless first do expect .flowEntry .expectedFlowEnd
        if ← skipIf .key then
          let k ← nodeUnless [.value, .flowEntry, .flowMappingEnd] false false fuel
          let v ← if ← skipIf .value then
              nodeUnless [.flowEntry, .flowMappingEnd] false false fuel
            else pure nothing
          return (k, v) :: (← flowPairs false fuel)
        else if ← skipIf .flowMappingEnd then return []
        else
          let k ← node false false fuel
          return (k, nothing) :: (← flowPairs false fuel)

end

/-! ### Documents -/

/-- Reads the directives in front of a document and tells whether there are any. -/
def directives : Nat → Reading Bool
  | 0 => return false
  | fuel + 1 => do
      match ← peek with
      | some (.version _ _) =>
          skip
          discard (directives fuel)
          return true
      | some (.tagHandle handle expansion) =>
          skip
          modify fun b => { b with handles := (handle, expansion) :: b.handles }
          discard (directives fuel)
          return true
      | _ => return false

/-- Passes over marks that end a document. -/
def skipEnds : Nat → Reading Unit
  | 0 => return
  | fuel + 1 => do
      if ← skipIf .documentEnd then skipEnds fuel

/-- Reads the only document. An empty one is an empty scalar. -/
def document (fuel : Nat) : Reading Node := do
  let directed ← directives fuel
  let started ← skipIf .documentStart
  if directed && !started then fail .expectedDocument
  else
    let isEmpty := (← peek).isNone || (started && (← isNext [.documentStart, .documentEnd]))
    let n ← if isEmpty then pure nothing else node true false fuel
    skipEnds fuel
    if (← peek).isSome then fail .secondDocument else return n

end Builder

/-- The node of a text with one document. -/
def parse (text : String) : Except Fault Node := do
  let ts ← tokens text.toList
  let (n, _) ← (Builder.document (4 * ts.length + 8)).run { rest := ts }
  .ok n

end RealmDirectory.Yaml
