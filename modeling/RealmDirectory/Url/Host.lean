import RealmDirectory.Text.Number
import RealmDirectory.Text.Piece
import RealmDirectory.Url.Percent

/-!
# Hosts of URLs

A host is a name, or an address of version 6 in brackets. The schemes that browsers know
read their hosts in a stricter way, in which a name that ends in a number is an address
of version 4; every other scheme keeps a name as it is written.

## Main definitions

* `UrlFault`: why a text is not a URL.
* `Host.parse`: the host of a text.
* `Host.render`: the text of a host.
-/

namespace RealmDirectory

/-- Why a text is not a URL. -/
inductive UrlFault where
  | noScheme
  | emptyHost
  | badPort
  | badAddress6
  | badAddress4
  | badDomain
  | badHostCharacter
  deriving DecidableEq, Repr

/-- The text of a fault. -/
def UrlFault.message : UrlFault → String
  | noScheme => "relative URL without a base"
  | emptyHost => "empty host"
  | badPort => "invalid port number"
  | badAddress6 => "invalid IPv6 address"
  | badAddress4 => "invalid IPv4 address"
  | badDomain => "invalid international domain name"
  | badHostCharacter => "invalid domain character"

/-- The host of a URL. -/
inductive Host where
  /-- No host, as between the slashes of `x:///`. -/
  | empty
  /-- A name, percent-encoded. -/
  | name (text : String)
  /-- An address of version 4. -/
  | address4 (value : UInt32)
  /-- An address of version 6, in pieces of 16 bits. -/
  | address6 (pieces : Vector UInt16 8)
  deriving DecidableEq, Repr

namespace Host

/-! ### Addresses of version 6 -/

/-- A number of one to four hexadecimal digits. -/
def piece6? (s : List Char) : Option UInt16 :=
  if s.isEmpty || 4 < s.length then none
  else (s.mapM Text.hexValue?).map fun ds => (ds.foldl (fun n d => 16 * n + d) 0).toUInt16

/-- A number below 256 without leading zeros. -/
def octet? (s : List Char) : Option Nat :=
  if s.isEmpty || (s.head? == some '0' && 1 < s.length) then none
  else Text.readDigits 255 0 s

/-- The two pieces of an address of version 4 inside one of version 6. -/
def dotted6? (s : List Char) : Option (List UInt16) := do
  match ← (Text.splitOn '.' s).mapM octet? with
  | [a, b, c, d] => some [(256 * a + b).toUInt16, (256 * c + d).toUInt16]
  | _ => none

/-- The pieces of texts between colons; only the last may be written with dots. -/
def pieces6? : List (List Char) → Option (List UInt16)
  | [] => some []
  | [s] => if s.contains '.' then dotted6? s else (piece6? s).map fun p => [p]
  | s :: r => do
      let p ← piece6? s
      let rest ← pieces6? r
      some (p :: rest)

/-- The pieces of a text; an empty text has none. -/
def side6? (s : List Char) : Option (List UInt16) :=
  if s.isEmpty then some [] else pieces6? (Text.splitOn ':' s)

/-- The text before the first two colons in a row and the text after them. -/
def cutGap : List Char → Option (List Char × List Char)
  | ':' :: ':' :: r => some ([], r)
  | [] => none
  | c :: r => (cutGap r).map fun p => (c :: p.1, p.2)

/-- Eight pieces, if there are so many. -/
def eight? (l : List UInt16) : Option (Vector UInt16 8) :=
  if h : l.length = 8 then some ⟨l.toArray, by simpa using h⟩ else none

/-- An address of version 6. Two colons in a row stand for at least one piece of zeros. -/
def address6? (s : List Char) : Option (Vector UInt16 8) :=
  match cutGap s with
  | none => (side6? s).bind eight?
  | some (before, behind) => do
      let left ← side6? before
      let right ← side6? behind
      if before.contains '.' || 7 < left.length + right.length then none
      else eight? (left ++ List.replicate (8 - left.length - right.length) 0 ++ right)

/-- The number of zeros at the start of pieces. -/
def zeros (l : List UInt16) : Nat := (l.takeWhile (· == 0)).length

/-- The longest run of at least two zeros, the first of several: its place and length. -/
def longestGap (l : List UInt16) : Option (Nat × Nat) :=
  let runs := (List.range l.length).map fun i => (i, zeros (l.drop i))
  runs.foldl
    (fun best r =>
      let length := match best with
        | some b => b.2
        | none => 1
      if length < r.2 then some r else best)
    none

/-- Pieces in hexadecimal digits with colons between them. -/
def joined6 (l : List UInt16) : List Char :=
  (Text.join ":" (l.map fun p => String.ofList (Nat.toDigits 16 p.toNat))).toList

/-- The text of an address of version 6. -/
def render6 (pieces : List UInt16) : List Char :=
  match longestGap pieces with
  | none => joined6 pieces
  | some (start, length) =>
      joined6 (pieces.take start) ++ ':' :: ':' :: joined6 (pieces.drop (start + length))

/-! ### Addresses of version 4 -/

/-- A number in decimal, octal or hexadecimal digits, by what it starts with. -/
def number4? (s : List Char) : Option Nat :=
  let digits (base : Nat) (ds : List Char) : Option Nat :=
    ds.foldlM (fun n c => do
      let d ← Text.hexValue? c
      if d < base then some (base * n + d) else none) 0
  match s with
  | [] => none
  | '0' :: 'x' :: r | '0' :: 'X' :: r => digits 16 r
  | '0' :: d :: r => digits 8 (d :: r)
  | _ => digits 10 s

/-- The labels of a name, without an empty one at its end. -/
def labels (s : List Char) : List (List Char) :=
  match (Text.splitOn '.' s).reverse with
  | [] :: r => r.reverse
  | l => l.reverse

/-- Whether the last label of a name is a number. -/
def endsInNumber (s : List Char) : Bool :=
  match (labels s).getLast? with
  | none => false
  | some l => (!l.isEmpty && l.all fun c => (Text.digitValue? c).isSome) ||
      ((l.take 2 == ['0', 'x'] || l.take 2 == ['0', 'X']) && (number4? l).isSome)

/-- An address of version 4: at most four numbers, of which the last fills the rest. -/
def address4? (s : List Char) : Option UInt32 := do
  let numbers ← (labels s).mapM number4?
  let last ← numbers.getLast?
  let front := numbers.dropLast
  if 3 < front.length || front.any (255 < ·) || Nat.pow 256 (4 - front.length) ≤ last then none
  else
    let high := front.foldl (fun n d => 256 * n + d) 0
    some (high * Nat.pow 256 (4 - front.length) + last).toUInt32

/-- The text of an address of version 4. -/
def render4 (a : UInt32) : List Char :=
  (Text.join "." (([24, 16, 8, 0] : List UInt32).map fun shift =>
    String.ofList (Text.decimal ((a >>> shift) &&& 255).toNat))).toList

/-! ### Names -/

/-- The characters that no name has. -/
def isForbidden (c : Char) : Bool :=
  ['\x00', '\t', '\n', '\r', ' ', '#', '/', ':', '<', '>', '?', '@', '[', '\\', ']', '^',
    '|'].contains c

/-- The host of a text under a scheme that browsers know. Names outside ASCII are
refused. -/
def parseDomain (s : List Char) : Except UrlFault Host :=
  let plain := (Text.ofUtf8Lossy (Percent.decode (Text.utf8Bytes s))).map Char.toLower
  if plain.any fun c => isForbidden c || Percent.isControl c || c == '%' then
    .error .badDomain
  else if plain.isEmpty then .error .emptyHost
  else if endsInNumber plain then
    match address4? plain with
    | some a => .ok (address4 a)
    | none => .error .badAddress4
  else .ok (name (String.ofList plain))

/-- The host of a text; `known` tells whether browsers know the scheme. -/
def parse (known : Bool) (s : List Char) : Except UrlFault Host :=
  match s with
  | '[' :: r =>
      if r.getLast? ≠ some ']' then .error .badAddress6
      else
        match address6? r.dropLast with
        | some pieces => .ok (address6 pieces)
        | none => .error .badAddress6
  | _ =>
      if known then parseDomain s
      else if s.any isForbidden then .error .badHostCharacter
      else if s.isEmpty then .ok empty
      else .ok (name (String.ofList (Percent.encode Percent.isControl s)))

/-- The text of a host. -/
def render : Host → String
  | empty => ""
  | name text => text
  | address4 a => String.ofList (render4 a)
  | address6 pieces => String.ofList ('[' :: (render6 pieces.toList ++ [']']))

end Host

end RealmDirectory
