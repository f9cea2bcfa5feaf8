import RealmDirectory.Digest.Blake2b

/-!
# Argon2

A digest of passwords that takes memory. Lanes of blocks of 1024 bytes are filled block
by block; each new block mixes the one before it with an older one, chosen by the
content of the memory, by a counter, or by the counter first and the content later. The
digest is drawn from the last blocks of all lanes.

## Main definitions

* `Variant`, `Cost`: how older blocks are chosen, and how much work is done.
* `mixBlocks`: the block that follows from two blocks.
* `reference`: the older block for a place.
* `hash`: the digest of a password.
-/

namespace RealmDirectory.Digest.Argon2

/-- How older blocks are chosen. -/
inductive Variant where
  /-- By the content of the memory. -/
  | d
  /-- By a counter. -/
  | i
  /-- By a counter in the first half of the first pass, and by the content later. -/
  | id
  deriving DecidableEq, Repr

/-- The number of a variant. -/
def Variant.number : Variant → Nat
  | d => 0
  | i => 1
  | id => 2

/-- How later passes treat the block that they replace. -/
inductive Version where
  /-- They overwrite it. -/
  | v16
  /-- They mix it in. -/
  | v19
  deriving DecidableEq, Repr

/-- The number of a version. -/
def Version.number : Version → Nat
  | v16 => 16
  | v19 => 19

/-- How much work is done. -/
structure Cost where
  /-- The memory in blocks of 1024 bytes. -/
  memory : Nat
  /-- The passes over the memory. -/
  passes : Nat
  /-- The lanes of the memory. -/
  lanes : Nat
  deriving DecidableEq, Repr

/-! ### Blocks -/

/-- A block of 1024 bytes. -/
abbrev Block := Vector UInt64 128

/-- The block of zeros. -/
def zeroBlock : Block := Vector.replicate 128 0

/-- The exclusive or of two blocks. -/
def xorBlocks (x y : Block) : Block := Vector.zipWith (· ^^^ ·) x y

/-- Four words that are mixed together. -/
structure Quad where
  a : UInt64
  b : UInt64
  c : UInt64
  d : UInt64

/-- A sum of two words with twice the product of their lower halves. -/
@[inline] def mulAdd (x y : UInt64) : UInt64 :=
  x + y + 2 * ((x &&& 0xffffffff) * (y &&& 0xffffffff))

/-- Mixes four words. -/
@[inline] def mixQuad (a b c d : UInt64) : Quad :=
  let a := mulAdd a b
  let d := rotateRight64 (d ^^^ a) 32
  let c := mulAdd c d
  let b := rotateRight64 (b ^^^ c) 24
  let a := mulAdd a b
  let d := rotateRight64 (d ^^^ a) 16
  let c := mulAdd c d
  let b := rotateRight64 (b ^^^ c) 63
  ⟨a, b, c, d⟩

/-- Mixes sixteen words of a block: eight pairs of neighbours, `step` words apart, from
`base` on. -/
def mixSixteen (v : Block) (base step : Nat) : Block :=
  let get (k : Nat) : UInt64 := v.toArray.getD k 0
  let p1 := base + step
  let p2 := p1 + step
  let p3 := p2 + step
  let p4 := p3 + step
  let p5 := p4 + step
  let p6 := p5 + step
  let p7 := p6 + step
  let q0 := mixQuad (get base) (get p2) (get p4) (get p6)
  let q1 := mixQuad (get (base + 1)) (get (p2 + 1)) (get (p4 + 1)) (get (p6 + 1))
  let q2 := mixQuad (get p1) (get p3) (get p5) (get p7)
  let q3 := mixQuad (get (p1 + 1)) (get (p3 + 1)) (get (p5 + 1)) (get (p7 + 1))
  let r0 := mixQuad q0.a q1.b q2.c q3.d
  let r1 := mixQuad q1.a q2.b q3.c q0.d
  let r2 := mixQuad q2.a q3.b q0.c q1.d
  let r3 := mixQuad q3.a q0.b q1.c q2.d
  let v := v.setIfInBounds base r0.a |>.setIfInBounds (base + 1) r1.a
  let v := v.setIfInBounds p1 r2.a |>.setIfInBounds (p1 + 1) r3.a
  let v := v.setIfInBounds p2 r3.b |>.setIfInBounds (p2 + 1) r0.b
  let v := v.setIfInBounds p3 r1.b |>.setIfInBounds (p3 + 1) r2.b
  let v := v.setIfInBounds p4 r2.c |>.setIfInBounds (p4 + 1) r3.c
  let v := v.setIfInBounds p5 r0.c |>.setIfInBounds (p5 + 1) r1.c
  let v := v.setIfInBounds p6 r1.d |>.setIfInBounds (p6 + 1) r2.d
  v.setIfInBounds p7 r3.d |>.setIfInBounds (p7 + 1) r0.d

/-- The block that follows from two blocks. -/
def mixBlocks (x y : Block) : Block :=
  let r := xorBlocks x y
  let rows := Nat.fold 8 (fun i _ v => mixSixteen v (16 * i) 2) r
  let columns := Nat.fold 8 (fun i _ v => mixSixteen v (2 * i) 16) rows
  xorBlocks r columns

/-- The block of some bytes. -/
def Block.ofBytes (bytes : List UInt8) : Block :=
  let b := bytes.toByteArray
  Vector.ofFn fun i => word64Little b (8 * i.val)

/-- The bytes of a block. -/
def Block.toBytes (x : Block) : List UInt8 := (bytes64Little x 1024).toList

/-! ### Digests of any size -/

/-- A number in four bytes, the lowest first. -/
def le32 (n : Nat) : List UInt8 :=
  [n.toUInt8, (n >>> 8).toUInt8, (n >>> 16).toUInt8, (n >>> 24).toUInt8]

/-- A text behind its length. -/
def counted (bytes : List UInt8) : List UInt8 := le32 bytes.length ++ bytes

/-- Half digests in a chain, until at most 64 bytes are wanted. -/
def longChain : Nat → Nat → Vector UInt8 64 → List UInt8
  | 0, _, v => v.toList
  | n + 1, size, v =>
      if size ≤ 64 then (Blake2b.digest size v.toList).toList
      else
        let next := Blake2b.digest 64 v.toList
        next.toList.take 32 ++ longChain n (size - 32) next

/-- The digest of `size` bytes. -/
def longDigest (size : Nat) (message : List UInt8) : List UInt8 :=
  if size ≤ 64 then (Blake2b.digest size (le32 size ++ message)).toList
  else
    let first := Blake2b.digest 64 (le32 size ++ message)
    first.toList.take 32 ++ longChain size (size - 32) first

/-! ### Filling the memory -/

/-- The blocks of a segment: a lane has four, at least two blocks long. -/
def Cost.segment (c : Cost) : Nat := c.memory / (4 * c.lanes)

/-- The blocks of a lane. -/
def Cost.lane (c : Cost) : Nat := 4 * c.segment

/-- A place in the memory: its pass, its quarter of the lanes, its lane, and its index in
that segment. -/
structure Place where
  pass : Nat
  slice : Nat
  lane : Nat
  index : Nat

/-- The column of a place in its lane. -/
def Place.column (c : Cost) (p : Place) : Nat := p.slice * c.segment + p.index

/-- Whether the older block of a place is chosen by the counter. -/
def Place.byCounter (variant : Variant) (p : Place) : Bool :=
  match variant with
  | .d => false
  | .i => true
  | .id => p.pass == 0 && p.slice < 2

/-- The block of choices for the places of a segment from index `128 * n` on. -/
def counterBlock (variant : Variant) (c : Cost) (p : Place) (n : Nat) : Block :=
  let head : List Nat :=
    [p.pass, p.lane, p.slice, c.lane * c.lanes, c.passes, variant.number, n + 1]
  let input : Block := Vector.ofFn fun i => (head.getD i.val 0).toUInt64
  mixBlocks zeroBlock (mixBlocks zeroBlock input)

/-- The lane and the column of the older block that a choice of 64 bits means at a
place. -/
def reference (c : Cost) (p : Place) (choice : UInt64) : Nat × Nat :=
  let lane :=
    if p.pass = 0 ∧ p.slice = 0 then p.lane else (choice >>> 32).toNat % c.lanes
  let ready := if p.pass = 0 then p.slice * c.segment else c.lane - c.segment
  let area :=
    if lane = p.lane then ready + p.index - 1
    else if p.index = 0 then ready - 1 else ready
  let x := (choice &&& 0xffffffff).toNat
  let back := (area * ((x * x) >>> 32)) >>> 32
  let start := if p.pass = 0 ∨ p.slice = 3 then 0 else (p.slice + 1) * c.segment
  (lane, (start + (area - 1 - back)) % c.lane)

/-- The memory with the block of one more place. -/
def fillPlace (variant : Variant) (version : Version) (c : Cost) (choices : Block)
    (p : Place) (memory : Array Block) : Array Block :=
  let column := p.column c
  let here := p.lane * c.lane + column
  let before := p.lane * c.lane + (if column = 0 then c.lane - 1 else column - 1)
  let last := memory.getD before zeroBlock
  let choice :=
    if p.byCounter variant then choices.toArray.getD (p.index % 128) 0 else last.toArray.getD 0 0
  let (lane, old) := reference c p choice
  let next := mixBlocks last (memory.getD (lane * c.lane + old) zeroBlock)
  let block :=
    if p.pass = 0 ∨ version = .v16 then next
    else xorBlocks next (memory.getD here zeroBlock)
  memory.setIfInBounds here block

/-- The memory with the blocks of one more segment. The first two blocks of a lane are
there from the start. -/
def fillSegment (variant : Variant) (version : Version) (c : Cost)
    (pass slice lane : Nat) (memory : Array Block) : Array Block :=
  let first := if pass = 0 ∧ slice = 0 then 2 else 0
  let at0 : Place := ⟨pass, slice, lane, 0⟩
  let choices (n : Nat) : Block :=
    if at0.byCounter variant then counterBlock variant c at0 n else zeroBlock
  (Nat.fold (c.segment - first)
    (fun k _ (s : Block × Array Block) =>
      let index := first + k
      let choice := if index % 128 = 0 then choices (index / 128) else s.1
      (choice, fillPlace variant version c choice ⟨pass, slice, lane, index⟩ s.2))
    (choices 0, memory)).2

/-- The memory behind all passes. -/
def fill (variant : Variant) (version : Version) (c : Cost) (memory : Array Block) :
    Array Block :=
  Nat.fold c.passes
    (fun pass _ memory =>
      Nat.fold 4
        (fun slice _ memory =>
          Nat.fold c.lanes
            (fun lane _ memory => fillSegment variant version c pass slice lane memory)
            memory)
        memory)
    memory

/-- The digest of `size` bytes of a password under a salt, with additional data. -/
def hash (variant : Variant) (version : Version) (c : Cost) (size : Nat)
    (password salt extra : List UInt8) : Vector UInt8 size :=
  let start := (Blake2b.digest 64
    (le32 c.lanes ++ le32 size ++ le32 c.memory ++ le32 c.passes ++
      le32 version.number ++ le32 variant.number ++ counted password ++ counted salt ++
      counted [] ++ counted extra)).toList
  let seed (lane column : Nat) : Block :=
    Block.ofBytes (longDigest 1024 (start ++ le32 column ++ le32 lane))
  let memory := Nat.fold c.lanes
    (fun lane _ m =>
      (m.setIfInBounds (lane * c.lane) (seed lane 0)).setIfInBounds
        (lane * c.lane + 1) (seed lane 1))
    (Array.replicate (c.lane * c.lanes) zeroBlock)
  let filled := fill variant version c memory
  let last := Nat.fold c.lanes
    (fun lane _ x => xorBlocks x (filled.getD (lane * c.lane + c.lane - 1) zeroBlock))
    zeroBlock
  let digest := longDigest size last.toBytes
  Vector.ofFn fun i => digest.toArray.getD i.val 0

end RealmDirectory.Digest.Argon2
