import RealmDirectory.Text.Hex
import RealmDirectory.Yaml.Cursor

/-!
# Scalars of a document

The text of a scalar can be written plainly, in single or double quotes, or as a block of
lines that keeps its line breaks or folds them. Each reader takes the place where the
scalar begins and returns its text and the place behind it.

Loops carry the number of characters that are left as fuel; every round takes at least
one of them.

## Main definitions

* `readPlain`: a scalar without quotes.
* `readQuoted`: a scalar in quotes.
* `readBlock`: a block of lines.
-/

namespace RealmDirectory.Yaml

/-! ### Plain scalars -/

/-- Whether a character ends a plain scalar inside brackets. -/
def isFlowMark (c : Char) : Bool := [',', '[', ']', '\x7b', '\x7d'].contains c

/-- The longest word of a plain scalar. A colon in front of a gap ends it; inside
brackets, so do commas and brackets, and a colon in front of them is a fault. -/
def plainWord (flow : Bool) : List Char → Except Fault (List Char)
  | [] => .ok []
  | c :: r =>
      if isBlank c || isBreak c then .ok []
      else if c == ':' && flow && (r.head?.any fun d => isFlowMark d || d == '?') then
        .error .colonInFlow
      else if c == ':' && isWordEnd r then .ok []
      else if flow && isFlowMark c then .ok []
      else (plainWord flow r).map fun w => c :: w

/-- Reads on in a plain scalar behind some text and a gap. -/
def readPlainFrom (flow : Bool) (indent : Nat) :
    Nat → List Char → Gap → Cursor → Except Fault (List Char × Gap × Cursor)
  | 0, text, gap, c => .ok (text, gap, c)
  | fuel + 1, text, gap, c =>
      if c.isDocumentMark || c.head? = some '#' then .ok (text, gap, c)
      else do
        let word ← plainWord flow c.rest
        let c := c.advance word.length
        let (text, gap) : List Char × Gap :=
          if word.isEmpty then (text, gap) else (text ++ gap.fold ++ word, {})
        if c.rest.isEmpty || !isWordEnd c.rest then .ok (text, gap, c)
        else
          let (gap, c) ← gap.read indent c
          if !flow && c.column < indent then .ok (text, gap, c)
          else readPlainFrom flow indent fuel text gap c

/-- Reads a plain scalar: its text, whether it ends with a line break, and the place
behind it and the gap that follows. -/
def readPlain (flow : Bool) (indent : Nat) (c : Cursor) :
    Except Fault (List Char × Bool × Cursor) := do
  let (text, gap, c) ← readPlainFrom flow indent (c.rest.length + 1) [] {} c
  .ok (text, !gap.breaks.isEmpty, c)

/-! ### Quoted scalars -/

/-- The character of an escape with a single letter. -/
def letterEscape? (c : Char) : Option Char :=
  [('0', '\x00'), ('a', '\x07'), ('b', '\x08'), ('t', '\t'), ('\t', '\t'), ('n', '\n'),
    ('v', '\x0b'), ('f', '\x0c'), ('r', '\r'), ('e', '\x1b'), (' ', ' '), ('"', '"'),
    ('/', '/'), ('\\', '\\'), ('N', '\x85'), ('_', '\xa0'), ('L', '\u2028'),
    ('P', '\u2029')].lookup c

/-- The number of hexadecimal digits of an escape that names a character by its code. -/
def codeLength? (c : Char) : Option Nat := [('x', 2), ('u', 4), ('U', 8)].lookup c

/-- The character with a code, written in a given number of digits. -/
def codeEscape? (length : Nat) (digits : List Char) : Option Char := do
  if digits.length < length then none
  else
    let values ← digits.mapM Text.hexValue?
    let n := values.foldl (fun n d => 16 * n + d) 0
    if h : n.isValidChar then some (Char.ofNatAux n h) else none

/-- Reads on in quotes up to a gap or the closing quote. The flag tells whether an escaped
line break was met, behind which the gap has a break already. -/
def readQuotedRun (double : Bool) :
    Nat → List Char → Cursor → Except Fault (List Char × Bool × Cursor)
  | 0, text, c => .ok (text, false, c)
  | fuel + 1, text, c =>
      match c.rest with
      | [] => .ok (text, false, c)
      | b :: r =>
          if isBlank b || isBreak b then .ok (text, false, c)
          else if !double && b == '\'' && r.head? == some '\'' then
            readQuotedRun double fuel (text ++ ['\'']) (c.advance 2)
          else if b == (if double then '"' else '\'') then .ok (text, false, c)
          else if double && b == '\\' then
            match r with
            | [] => .error .badEscape
            | e :: digits =>
                if isBreak e then .ok (text, true, (c.advance 1).skipBreak)
                else
                  match letterEscape? e, codeLength? e with
                  | some d, _ => readQuotedRun double fuel (text ++ [d]) (c.advance 2)
                  | none, some n =>
                      match codeEscape? n (digits.take n) with
                      | some d =>
                          readQuotedRun double fuel (text ++ [d]) (c.advance (2 + n))
                      | none => .error .badEscape
                  | none, none => .error .badEscape
          else readQuotedRun double fuel (text ++ [b]) (c.advance 1)

/-- Reads on in quotes. -/
def readQuotedFrom (double : Bool) :
    Nat → List Char → Cursor → Except Fault (List Char × Cursor)
  | 0, _, _ => .error .openQuote
  | fuel + 1, text, c =>
      if c.isDocumentMark then .error .documentMarkInQuote
      else if c.rest.isEmpty then .error .openQuote
      else do
        let (text, escaped, c) ← readQuotedRun double (c.rest.length + 1) text c
        if !escaped && c.head? = some (if double then '"' else '\'') then
          .ok (text, c.advance 1)
        else
          let gap : Gap := if escaped then { breaks := [[]] } else {}
          let (gap, c) ← gap.read 0 c
          readQuotedFrom double fuel (text ++ gap.fold) c

/-- Reads a quoted scalar from its opening quote on. -/
def readQuoted (double : Bool) (c : Cursor) : Except Fault (List Char × Cursor) :=
  readQuotedFrom double (c.rest.length + 1) [] (c.advance 1)

/-! ### Block scalars -/

/-- What becomes of the line breaks at the end of a block. -/
inductive Chomping where
  | strip
  | clip
  | keep
  deriving DecidableEq, Repr

/-- The sign of a way of chomping. -/
def chomping? (c : Char) : Option Chomping := [('+', .keep), ('-', .strip)].lookup c

/-- A digit from 1 to 9. -/
def indentDigit? (c : Char) : Option Nat :=
  if '1' ≤ c ∧ c ≤ '9' then some (c.toNat - '0'.toNat) else none

/-- The header of a block: how it is chomped, the indentation that it gives or 0, and the
number of its characters. -/
def blockHeader : List Char → Chomping × Nat × Nat
  | [] => (.clip, 0, 0)
  | a :: r =>
      let b? := r.head?
      match chomping? a, indentDigit? a with
      | some chomping, _ =>
          match b?.bind indentDigit? with
          | some n => (chomping, n, 2)
          | none => (chomping, 0, 1)
      | none, some n =>
          match b?.bind chomping? with
          | some chomping => (chomping, n, 2)
          | none => (.clip, n, 1)
      | none, none => (.clip, 0, 0)

/-- Reads empty lines and the indentation behind them. With no indentation known, the
widest one that was met is reported. -/
def readBreaks (indent : Nat) :
    Nat → Nat → List Char → Cursor → Except Fault (List Char × Nat × Cursor)
  | 0, widest, breaks, c => .ok (breaks, widest, c)
  | fuel + 1, widest, breaks, c =>
      let spaces := (c.rest.takeWhile (· == ' ')).length
      let c := c.advance (if indent = 0 then spaces else min spaces (indent - c.column))
      let widest := max widest c.column
      if (indent = 0 ∨ c.column < indent) ∧ c.head? = some '\t' then
        .error .tabInIndentation
      else
        match c.takeBreak? with
        | some (b, next) => readBreaks indent fuel widest (breaks ++ b) next
        | none => .ok (breaks, widest, c)

/-- Reads the lines of a block. `broken` is the line break behind the last line, and
`empty` the empty lines after it; `led` tells whether the last line began with a blank. -/
def readLines (folded : Bool) (indent : Nat) :
    Nat → List Char → List Char → List Char → Bool → Cursor →
      Except Fault (List Char × List Char × List Char × Cursor)
  | 0, text, broken, empty, _, c => .ok (text, broken, empty, c)
  | fuel + 1, text, broken, empty, led, c =>
      if c.column ≠ indent ∨ c.rest.isEmpty then .ok (text, broken, empty, c)
      else do
        let leads := c.head?.any isBlank
        let joint :=
          if folded && broken == ['\n'] && !led && !leads then
            if empty.isEmpty then [' '] else []
          else broken
        let line := c.rest.takeWhile fun b => !isBreak b
        let text := text ++ joint ++ empty ++ line
        let c := c.advance line.length
        let (broken, c) := c.takeBreak?.getD ([], c)
        let (empty, _, c) ← readBreaks indent (c.rest.length + 1) 0 [] c
        readLines folded indent fuel text broken empty leads c

/-- Reads a block scalar from its sign on; `least` is the least indentation that it may
have. -/
def readBlock (folded : Bool) (least : Nat) (c : Cursor) :
    Except Fault (List Char × Cursor) := do
  let c := c.advance 1
  let (chomping, given, length) := blockHeader c.rest
  let c := ((c.advance length).skipWhile isBlank).skipComment
  if !isLineEnd c.rest then .error .badBlockHeader
  else
    let c := c.skipBreak
    let indent := if given = 0 then 0 else least - 1 + given
    let (empty, widest, c) ← readBreaks indent (c.rest.length + 1) 0 [] c
    let indent := if indent = 0 then max widest (max least 1) else indent
    let (text, broken, empty, c) ←
      readLines folded indent (c.rest.length + 1) [] [] empty false c
    match chomping with
    | .strip => .ok (text, c)
    | .clip => .ok (text ++ broken, c)
    | .keep => .ok (text ++ broken ++ empty, c)

end RealmDirectory.Yaml
