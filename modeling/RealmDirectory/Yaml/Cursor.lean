/-!
# Places in a document

The reader of a document stands at a place: it knows what is left of the text, and the
line and the column where that begins. Between words there are gaps of blanks and line
breaks, which fold into the text of a scalar.

## Main definitions

* `Fault`: why a text is not a document.
* `Cursor`: a place in a text.
* `Gap`, `Gap.fold`: blanks and line breaks between words, and what they stand for.
-/

namespace RealmDirectory.Yaml

/-- Why a text is not a document. -/
inductive Fault where
  | controlCharacter
  | unexpectedCharacter
  | tabInIndentation
  | missingColon
  | entryNotAllowed
  | keyNotAllowed
  | valueNotAllowed
  | colonInFlow
  | openQuote
  | documentMarkInQuote
  | badEscape
  | badBlockHeader
  | badAnchor
  | badTag
  | badDirective
  | unknownTagHandle
  | unknownAnchor
  | expectedEntry
  | expectedKey
  | expectedFlowEnd
  | expectedNode
  | expectedDocument
  | secondDocument
  deriving DecidableEq, Repr

/-- The text of a fault. -/
def Fault.message : Fault → String
  | controlCharacter => "control characters are not allowed"
  | unexpectedCharacter => "found a character that cannot start any token"
  | tabInIndentation => "found a tab where indentation is expected"
  | missingColon => "could not find the expected colon"
  | entryNotAllowed => "block sequence entries are not allowed here"
  | keyNotAllowed => "mapping keys are not allowed here"
  | valueNotAllowed => "mapping values are not allowed here"
  | colonInFlow => "found an unexpected colon"
  | openQuote => "found the end of the text inside quotes"
  | documentMarkInQuote => "found a document mark inside quotes"
  | badEscape => "found an unknown escape"
  | badBlockHeader => "did not find the line break behind a block scalar's header"
  | badAnchor => "an anchor or alias has no proper name"
  | badTag => "a tag is not written properly"
  | badDirective => "a directive is not written properly"
  | unknownTagHandle => "found an undefined tag handle"
  | unknownAnchor => "unknown anchor"
  | expectedEntry => "did not find the expected dash"
  | expectedKey => "did not find the expected key"
  | expectedFlowEnd => "did not find the expected comma or closing bracket"
  | expectedNode => "did not find the expected content"
  | expectedDocument => "did not find the expected start of a document"
  | secondDocument => "more than one document"

/-! ### Characters -/

/-- Whether a character may stand in a document. -/
def isAllowed (c : Char) : Bool :=
  let n := c.toNat
  n == 0x09 || n == 0x0A || n == 0x0D || (0x20 ≤ n && n ≤ 0x7E) || n == 0x85 ||
    (0xA0 ≤ n && n ≤ 0xFFFD) || 0x10000 ≤ n

/-- Whether a character is a space or a tab. -/
def isBlank (c : Char) : Bool := c == ' ' || c == '\t'

/-- Whether a character breaks the line. -/
def isBreak (c : Char) : Bool :=
  c == '\n' || c == '\r' || c == '\x85' || c == '\u2028' || c == '\u2029'

/-- Whether a character may stand in the name of an anchor. -/
def isNameChar (c : Char) : Bool := c.isAlphanum || c == '_' || c == '-'

/-- Whether a text is over or goes on with a blank or a line break. -/
def isWordEnd : List Char → Bool
  | [] => true
  | c :: _ => isBlank c || isBreak c

/-- Whether a text is over or goes on with a line break. -/
def isLineEnd : List Char → Bool
  | [] => true
  | c :: _ => isBreak c

/-! ### Cursors -/

/-- A place in a text. -/
structure Cursor where
  /-- What is left of the text. -/
  rest : List Char
  /-- The number of characters before the place. -/
  index : Nat := 0
  /-- The number of lines before the place. -/
  line : Nat := 0
  /-- The number of characters before the place on its line. -/
  column : Nat := 0
  deriving DecidableEq, Repr

namespace Cursor

/-- The place behind some characters of the line. -/
def advance (n : Nat) (c : Cursor) : Cursor :=
  { c with rest := c.rest.drop n, index := c.index + n, column := c.column + n }

/-- The place behind the characters with a property. -/
def skipWhile (p : Char → Bool) (c : Cursor) : Cursor :=
  c.advance (c.rest.takeWhile p).length

/-- The place at the start of the next line, behind a break of some characters. -/
def nextLine (n : Nat) (c : Cursor) : Cursor :=
  { rest := c.rest.drop n, index := c.index + n, line := c.line + 1, column := 0 }

/-- The line break at a place, as it counts in a scalar, and the place behind it. -/
def takeBreak? (c : Cursor) : Option (List Char × Cursor) :=
  match c.rest with
  | '\r' :: '\n' :: _ => some (['\n'], c.nextLine 2)
  | b :: _ =>
      if b == '\n' || b == '\r' || b == '\x85' then some (['\n'], c.nextLine 1)
      else if isBreak b then some ([b], c.nextLine 1)
      else none
  | [] => none

/-- The first character that is left. -/
def head? (c : Cursor) : Option Char := c.rest.head?

/-- The second character that is left. -/
def second? (c : Cursor) : Option Char := (c.rest.drop 1).head?

/-- Whether the text behind the first character is over or goes on with a gap. -/
def isLone (c : Cursor) : Bool := isWordEnd (c.rest.drop 1)

/-- Whether a line starts here with three characters and a gap. -/
def isMark (mark : Char) (c : Cursor) : Bool :=
  c.column == 0 && c.rest.take 3 == [mark, mark, mark] && isWordEnd (c.rest.drop 3)

/-- Whether a mark between documents stands here. -/
def isDocumentMark (c : Cursor) : Bool := c.isMark '-' || c.isMark '.'

/-- The place behind a comment, if one stands here. -/
def skipComment (c : Cursor) : Cursor :=
  if c.head? = some '#' then c.skipWhile fun b => !isBreak b else c

/-- The place behind a line break, if one stands here. -/
def skipBreak (c : Cursor) : Cursor := (c.takeBreak?.map Prod.snd).getD c

end Cursor

/-! ### Gaps -/

/-- Blanks and line breaks between two words. -/
structure Gap where
  /-- The blanks, when there is no line break. -/
  blanks : List Char := []
  /-- The line breaks. -/
  breaks : List (List Char) := []
  deriving DecidableEq, Repr

namespace Gap

/-- What a gap stands for: its blanks, or one space for a single line break, or all line
breaks but the first. -/
def fold (g : Gap) : List Char :=
  match g.breaks with
  | [] => g.blanks
  | b :: more =>
      if b = ['\n'] then (if more.isEmpty then [' '] else more.flatten)
      else b ++ more.flatten

/-- Reads on in a gap, for at most `fuel` characters. Behind a line break, a tab before
the column `indent` is a fault. -/
def readFrom (indent : Nat) : Nat → Gap → Cursor → Except Fault (Gap × Cursor)
  | 0, g, c => .ok (g, c)
  | fuel + 1, g, c =>
      match c.takeBreak?, c.head? with
      | some (b, next), _ =>
          readFrom indent fuel { blanks := [], breaks := g.breaks ++ [b] } next
      | none, some b =>
          if !isBlank b then .ok (g, c)
          else if g.breaks.isEmpty then
            readFrom indent fuel { g with blanks := g.blanks ++ [b] } (c.advance 1)
          else if b = '\t' ∧ c.column < indent then .error .tabInIndentation
          else readFrom indent fuel g (c.advance 1)
      | none, none => .ok (g, c)

/-- Reads on in a gap. -/
def read (indent : Nat) (g : Gap) (c : Cursor) : Except Fault (Gap × Cursor) :=
  readFrom indent c.rest.length g c

end Gap

end RealmDirectory.Yaml
