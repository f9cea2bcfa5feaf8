import RealmDirectory.Yaml.Scalar

/-!
# Tokens of a document

A document is read into tokens. Indentation becomes tokens of its own: the reader keeps
the open columns, and a line that starts further left closes them. A key is recognised
only when its colon comes, so the reader remembers where a key could have begun and puts
the key's token there afterwards.

## Main definitions

* `Token`: the tokens.
* `Lexer`: the state of the reader, `Lexer.step` its one step.
* `tokens`: the tokens of a text.
-/

namespace RealmDirectory.Yaml

/-- A token of a document. -/
inductive Token where
  | version (major minor : Nat)
  | tagHandle (handle expansion : List Char)
  | documentStart
  | documentEnd
  | blockSequence
  | blockMapping
  | blockEnd
  | flowSequence
  | flowSequenceEnd
  | flowMapping
  | flowMappingEnd
  | blockEntry
  | flowEntry
  | key
  | value
  | alias (name : List Char)
  | anchor (name : List Char)
  | tag (handle suffix : List Char)
  | scalar (plain : Bool) (text : List Char)
  deriving DecidableEq, Repr

/-- A place where a key could have begun. -/
structure PossibleKey where
  /-- The number of tokens before it. -/
  token : Nat
  /-- Whether the line has to be a key, as it starts at the column of open keys. -/
  required : Bool
  /-- The place. -/
  place : Cursor
  deriving DecidableEq, Repr

/-- The state of the reader. -/
structure Lexer where
  /-- The place in the text. -/
  cursor : Cursor
  /-- The tokens that were read. -/
  tokens : List Token := []
  /-- The column of the innermost open block, or -1. -/
  indent : Int := -1
  /-- The columns of the blocks around it. -/
  outer : List Int := []
  /-- Whether a key may begin here. -/
  keyAllowed : Bool := true
  /-- The possible key of the block, and of each bracket that is open, innermost first. -/
  keys : List (Option PossibleKey) := [none]

namespace Lexer

/-- Whether a bracket is open. -/
def inFlow (l : Lexer) : Bool := 1 < l.keys.length

/-- The lexer at another place. -/
def moveTo (l : Lexer) (c : Cursor) : Lexer := { l with cursor := c }

/-- Adds a token. -/
def push (t : Token) (l : Lexer) : Lexer := { l with tokens := l.tokens ++ [t] }

/-- Allows or forbids a key at the next place. -/
def allowKey (allowed : Bool) (l : Lexer) : Lexer := { l with keyAllowed := allowed }

/-! ### Indentation -/

/-- Opens a block at a column to the right of the open ones; its token goes before the
tokens from `position` on. -/
def openBlock (column : Nat) (position : Nat) (t : Token) (l : Lexer) : Lexer :=
  if l.inFlow || (column : Int) ≤ l.indent then l
  else
    { l with
      indent := column
      outer := l.indent :: l.outer
      tokens := l.tokens.take position ++ t :: l.tokens.drop position }

/-- Closes the innermost of some open columns that lie to the right of a column. -/
def closeColumns (column : Int) :
    Int → List Int → List Token → Int × List Int × List Token
  | indent, [], ts => (indent, [], ts)
  | indent, o :: outer, ts =>
      if column < indent then closeColumns column o outer (ts ++ [.blockEnd])
      else (indent, o :: outer, ts)

/-- Closes the blocks to the right of a column. -/
def closeBlocks (column : Int) (l : Lexer) : Lexer :=
  if l.inFlow then l
  else
    let (indent, outer, tokens) := closeColumns column l.indent l.outer l.tokens
    { l with indent, outer, tokens }

/-! ### Possible keys -/

/-- Whether the colon of a possible key may come at a place: on the same line, and not
too far behind. -/
def isFresh (c : Cursor) (k : PossibleKey) : Bool :=
  k.place.line == c.line && c.index ≤ k.place.index + 1024

/-- Forgets the possible keys whose colon did not come in time. -/
def expireKeys (l : Lexer) : Except Fault Lexer :=
  let isLate (k : Option PossibleKey) : Bool := k.any fun k => !isFresh l.cursor k
  if l.keys.any fun k => isLate k && k.any PossibleKey.required then .error .missingColon
  else .ok { l with keys := l.keys.map fun k => if isLate k then none else k }

/-- Forgets the innermost possible key. -/
def dropKey (l : Lexer) : Except Fault Lexer :=
  match l.keys with
  | some k :: outer => if k.required then .error .missingColon
      else .ok { l with keys := none :: outer }
  | _ => .ok l

/-- Remembers that a key could begin here. -/
def saveKey (l : Lexer) : Except Fault Lexer :=
  if !l.keyAllowed then .ok l
  else do
    let required := !l.inFlow && l.indent == (l.cursor.column : Int)
    let l ← l.dropKey
    .ok { l with keys := some ⟨l.tokens.length, required, l.cursor⟩ :: l.keys.drop 1 }

/-! ### Gaps between tokens -/

/-- Skips blanks, comments and line breaks, for at most `fuel` rounds. A tab does not
count as a blank where a key may begin. -/
def skipGapFrom : Nat → Lexer → Lexer
  | 0, l => l
  | fuel + 1, l =>
      let isSkipped (b : Char) : Bool :=
        b == ' ' || ((l.inFlow || !l.keyAllowed) && b == '\t')
      let c := (l.cursor.skipWhile isSkipped).skipComment
      match c.takeBreak? with
      | some (_, next) => skipGapFrom fuel ((l.moveTo next).allowKey (l.keyAllowed || !l.inFlow))
      | none => l.moveTo c

/-- Skips what stands between tokens. A byte order mark may start the text. -/
def skipGap (l : Lexer) : Lexer :=
  let c := l.cursor
  let c := if c.index = 0 ∧ c.head? = some '\uFEFF' then c.advance 1 else c
  skipGapFrom (c.rest.length + 1) (l.moveTo c)

/-! ### Directives -/

/-- A number of one to nine digits and the place behind it. -/
def readVersionNumber (c : Cursor) : Except Fault (Nat × Cursor) :=
  let digits := c.rest.takeWhile Char.isDigit
  if digits.isEmpty || 9 < digits.length then .error .badDirective
  else .ok (digits.foldl (fun n d => 10 * n + (d.toNat - 48)) 0, c.advance digits.length)

/-- The handle of a tag: exclamation marks around a name, or a single one. -/
def readHandle (c : Cursor) : Except Fault (List Char × Cursor) :=
  if c.head? ≠ some '!' then .error .badTag
  else
    let name := (c.rest.drop 1).takeWhile isNameChar
    let c := c.advance (1 + name.length)
    if c.head? = some '!' then .ok ('!' :: (name ++ ['!']), c.advance 1)
    else .ok ('!' :: name, c)

/-- Whether a character may stand in a tag; commas and brackets may only inside angle
brackets and in directives. -/
def isTagChar (wide : Bool) (c : Char) : Bool :=
  isNameChar c ||
    [';', '/', '?', ':', '@', '&', '=', '+', '$', '.', '%', '!', '~', '*', '\'', '(',
      ')'].contains c ||
    (wide && [',', '[', ']'].contains c)

/-- The text of a tag and the place behind it. -/
def readTagText (wide : Bool) (c : Cursor) : List Char × Cursor :=
  let text := c.rest.takeWhile (isTagChar wide)
  (text, c.advance text.length)

/-- Reads a directive: the version of the format, or a handle for tags. -/
def readDirective (c : Cursor) : Except Fault (Token × Cursor) := do
  let c := c.advance 1
  let name := c.rest.takeWhile isNameChar
  let c := c.advance name.length
  let (t, c) ←
    if name = ['Y', 'A', 'M', 'L'] then do
      let (major, c) ← readVersionNumber (c.skipWhile isBlank)
      if c.head? ≠ some '.' then .error .badDirective
      else
        let (minor, c) ← readVersionNumber (c.advance 1)
        if major = 1 ∧ (minor = 1 ∨ minor = 2) then .ok (Token.version major minor, c)
        else .error .badDirective
    else if name = ['T', 'A', 'G'] then do
      let (handle, c) ← readHandle (c.skipWhile isBlank)
      if handle ≠ ['!'] ∧ handle.getLast? ≠ some '!' ∨ !c.head?.any isBlank then
        .error .badDirective
      else
        let (expansion, c) := readTagText true (c.skipWhile isBlank)
        if expansion.isEmpty || !isWordEnd c.rest then .error .badDirective
        else .ok (Token.tagHandle handle expansion, c)
    else .error .badDirective
  let c := (c.skipWhile isBlank).skipComment
  if isLineEnd c.rest then .ok (t, c.skipBreak) else .error .badDirective

/-! ### Anchors and tags -/

/-- The name of an anchor or an alias and the place behind it. -/
def readName (c : Cursor) : Except Fault (List Char × Cursor) :=
  let c := c.advance 1
  let name := c.rest.takeWhile isNameChar
  let c := c.advance name.length
  let ends := isWordEnd c.rest ||
    c.head?.any fun b => ['?', ':', ',', ']', '\x7d', '%', '@', '\x60'].contains b
  if name.isEmpty || !ends then .error .badAnchor else .ok (name, c)

/-- A tag and the place behind it. -/
def readTag (flow : Bool) (c : Cursor) : Except Fault (Token × Cursor) := do
  let (t, c) ←
    if c.second? = some '<' then
      let (text, c) := readTagText true (c.advance 2)
      if text.isEmpty || c.head? ≠ some '>' then .error .badTag
      else .ok (Token.tag [] text, c.advance 1)
    else do
      let (handle, c) ← readHandle c
      let (text, c) := readTagText false c
      if 1 < handle.length && handle.getLast? == some '!' then
        if text.isEmpty then .error .badTag else .ok (Token.tag handle text, c)
      else
        let suffix := handle.drop 1 ++ text
        .ok (if suffix.isEmpty then Token.tag [] ['!'] else Token.tag ['!'] suffix, c)
  if isWordEnd c.rest || (flow && c.head? == some ',') then .ok (t, c) else .error .badTag

/-! ### Steps -/

/-- A token that stands between documents, or a directive. -/
def readBetween (t : Token) (c : Cursor) (l : Lexer) : Except Fault Lexer := do
  let l ← (l.closeBlocks (-1)).dropKey
  .ok (((l.allowKey false).push t).moveTo c)

/-- An opening bracket. -/
def openFlow (t : Token) (l : Lexer) : Except Fault Lexer := do
  let l ← l.saveKey
  .ok (({ l with keys := none :: l.keys, keyAllowed := true }.push t).moveTo
    (l.cursor.advance 1))

/-- A closing bracket. -/
def closeFlow (t : Token) (l : Lexer) : Except Fault Lexer := do
  let l ← l.dropKey
  let keys := if l.inFlow then l.keys.drop 1 else l.keys
  .ok (({ l with keys, keyAllowed := false }.push t).moveTo (l.cursor.advance 1))

/-- A token of one character, behind which a key may begin or not. -/
def readMark (t : Token) (allowed : Bool) (l : Lexer) : Except Fault Lexer := do
  let l ← l.dropKey
  .ok (((l.allowKey allowed).push t).moveTo (l.cursor.advance 1))

/-- A dash in front of an entry. -/
def readEntry (l : Lexer) : Except Fault Lexer :=
  if l.inFlow then l.readMark .blockEntry true
  else if !l.keyAllowed then .error .entryNotAllowed
  else
    (l.openBlock l.cursor.column l.tokens.length .blockSequence).readMark .blockEntry true

/-- A question mark in front of a key. -/
def readKey (l : Lexer) : Except Fault Lexer :=
  if l.inFlow then l.readMark .key false
  else if !l.keyAllowed then .error .keyNotAllowed
  else (l.openBlock l.cursor.column l.tokens.length .blockMapping).readMark .key true

/-- A colon in front of a value. It makes a key of what could have been one; without such
a key it follows a question mark. -/
def readValue (l : Lexer) : Except Fault Lexer :=
  match l.keys with
  | some k :: outer =>
      let tokens := l.tokens.take k.token ++ .key :: l.tokens.drop k.token
      let l := { l with tokens, keys := none :: outer, keyAllowed := false }
      let l := l.openBlock k.place.column k.token .blockMapping
      .ok ((l.push .value).moveTo (l.cursor.advance 1))
  | _ =>
      if l.inFlow then .ok (((l.allowKey false).push .value).moveTo (l.cursor.advance 1))
      else if !l.keyAllowed then .error .valueNotAllowed
      else
        let l := l.openBlock l.cursor.column l.tokens.length .blockMapping
        .ok (((l.allowKey true).push .value).moveTo (l.cursor.advance 1))

/-- A token that may begin a key, read from its place. -/
def readNode (read : Cursor → Except Fault (Token × Cursor)) (l : Lexer) :
    Except Fault Lexer := do
  let l ← l.saveKey
  let (t, c) ← read l.cursor
  .ok (((l.allowKey false).push t).moveTo c)

/-- The least column of the lines inside the innermost open block. -/
def innerColumn (l : Lexer) : Nat := (l.indent + 1).toNat

/-- A scalar without quotes. Behind a line break, a key may begin again. -/
def readPlainScalar (l : Lexer) : Except Fault Lexer := do
  let l ← l.saveKey
  let (text, broken, c) ← readPlain l.inFlow l.innerColumn l.cursor
  .ok (((l.allowKey broken).push (.scalar true text)).moveTo c)

/-- A scalar in quotes. -/
def readQuotedScalar (double : Bool) : Lexer → Except Fault Lexer :=
  readNode fun c => (readQuoted double c).map fun p => (.scalar false p.1, p.2)

/-- A block of lines. -/
def readBlockScalar (folded : Bool) (l : Lexer) : Except Fault Lexer := do
  let l ← l.dropKey
  let (text, c) ← readBlock folded l.innerColumn l.cursor
  .ok (((l.allowKey true).push (.scalar false text)).moveTo c)

/-- Whether a plain scalar may begin at a place. -/
def startsPlain (flow : Bool) (c : Cursor) : Bool :=
  match c.head? with
  | none => false
  | some b =>
      !(isBlank b || isBreak b ||
        ['-', '?', ':', ',', '[', ']', '\x7b', '\x7d', '#', '&', '*', '!', '|', '>', '\'',
          '"', '%', '@', '\x60'].contains b) ||
      (b == '-' && !c.second?.any isBlank) ||
      (!flow && (b == '?' || b == ':') && !c.isLone)

/-- Reads the next token at a place where one begins. -/
def readToken (l : Lexer) : Except Fault Lexer :=
  let c := l.cursor
  match c.head? with
  | none => .ok l
  | some b =>
      if c.column = 0 ∧ b = '%' then do
        let (t, c) ← readDirective c
        l.readBetween t c
      else if c.isMark '-' then l.readBetween .documentStart (c.advance 3)
      else if c.isMark '.' then l.readBetween .documentEnd (c.advance 3)
      else if b = '[' then l.openFlow .flowSequence
      else if b = '\x7b' then l.openFlow .flowMapping
      else if b = ']' then l.closeFlow .flowSequenceEnd
      else if b = '\x7d' then l.closeFlow .flowMappingEnd
      else if b = ',' then l.readMark .flowEntry true
      else if b = '-' ∧ c.isLone then l.readEntry
      else if b = '?' ∧ (l.inFlow ∨ c.isLone) then l.readKey
      else if b = ':' ∧ (l.inFlow ∨ c.isLone) then l.readValue
      else if b = '*' then l.readNode fun c => (readName c).map fun p => (.alias p.1, p.2)
      else if b = '&' then l.readNode fun c => (readName c).map fun p => (.anchor p.1, p.2)
      else if b = '!' then l.readNode (readTag l.inFlow)
      else if b = '|' ∧ !l.inFlow then l.readBlockScalar false
      else if b = '>' ∧ !l.inFlow then l.readBlockScalar true
      else if b = '\'' then l.readQuotedScalar false
      else if b = '"' then l.readQuotedScalar true
      else if startsPlain l.inFlow c then l.readPlainScalar
      else .error .unexpectedCharacter

/-- Reads the gap before the next token, and the token. -/
def step (l : Lexer) : Except Fault Lexer := do
  let l ← l.skipGap.expireKeys
  (l.closeBlocks l.cursor.column).readToken

/-- Reads the rest of a text in at most `fuel` steps, and closes what is open. -/
def run : Nat → Lexer → Except Fault (List Token)
  | 0, l => do
      let l ← (l.closeBlocks (-1)).dropKey
      .ok l.tokens
  | fuel + 1, l => do
      let l ← l.step
      if l.cursor.rest.isEmpty then run 0 l else run fuel l

end Lexer

/-- The tokens of a text. -/
def tokens (text : List Char) : Except Fault (List Token) :=
  if text.all isAllowed then
    Lexer.run (text.length + 1) { cursor := { rest := text } }
  else .error .controlCharacter

end RealmDirectory.Yaml
