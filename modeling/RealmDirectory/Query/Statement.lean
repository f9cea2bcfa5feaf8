import RealmDirectory.Text.Blank
import RealmDirectory.Text.Number
import RealmDirectory.Text.Word

/-!
# Reading statements

Statements are read one character at a time. The reader's position knows the quote that
is open, if any, and the number of open parentheses; a quote is closed by the next
occurrence of its own character, so a doubled quote inside a literal closes and opens it
again.

## Main definitions

* `Position`, `Position.next`: the reader's state and its one step.
* `numberMarks`: `$1`, `$2`, … in place of the `?` marks outside quotes.
* `topLevel`: the statement with quoted and parenthesised parts blanked out.
* `hasOrderBy`: whether a text has the words ORDER BY.
-/

namespace RealmDirectory.Statement

/-- What is open at a place of a statement. -/
structure Position where
  /-- The open quote. -/
  quote : Option Char
  /-- The number of open parentheses. -/
  depth : Nat
  deriving DecidableEq, Repr

namespace Position

/-- The start of a statement. -/
def start : Position := ⟨none, 0⟩

/-- Whether a character opens a literal or a quoted name. -/
def isQuote (c : Char) : Bool := c == '\'' || c == '"'

/-- The position behind a character. -/
def next (p : Position) (c : Char) : Position :=
  match p.quote with
  | some q => if c = q then { p with quote := none } else p
  | none =>
      if isQuote c then { p with quote := some c }
      else if c = '(' then { p with depth := p.depth + 1 }
      else if c = ')' then { p with depth := p.depth - 1 }
      else p

/-- Whether the character at a position belongs to a quoted part, its quotes included. -/
def isQuoted (p : Position) (c : Char) : Bool := p.quote.isSome || isQuote c

/-- The position behind a text. -/
def after (p : Position) (s : List Char) : Position := s.foldl next p

end Position

/-! ### Numbered marks -/

/-- Numbers the unquoted marks of a text that starts at a position with `count` marks
before it. The count has no bound here; a statement that is sent has fewer than 2^31 marks, as many
as a signed number of 32 bits can count. -/
def numberMarksFrom (p : Position) (count : Nat) : List Char → List Char
  | [] => []
  | c :: r =>
      if c = '?' && !p.isQuoted c then
        '$' :: (Text.decimal (count + 1) ++ numberMarksFrom (p.next c) (count + 1) r)
      else c :: numberMarksFrom (p.next c) count r

/-- Puts `$1`, `$2`, … in place of the marks outside quotes, from left to right. -/
def numberMarks (statement : String) : String :=
  String.ofList (numberMarksFrom .start 0 statement.toList)

/-! ### The top level of a statement -/

/-- Blanks out what is quoted or parenthesised in a text that starts at a position. -/
def topLevelFrom (p : Position) : List Char → List Char
  | [] => []
  | c :: r =>
      let q := p.next c
      (if p.isQuoted c || 0 < q.depth || c == ')' then ' ' else c) :: topLevelFrom q r

/-- The statement with a blank for each quoted or parenthesised character. -/
def topLevel (statement : List Char) : List Char := topLevelFrom .start statement

/-- The text behind a word at the start of a text, in either case of its letters. -/
def dropWord? : List Char → List Char → Option (List Char)
  | [], s => some s
  | _ :: _, [] => none
  | w :: ws, c :: r => if c.toLower = w then dropWord? ws r else none

/-- Whether a text starts with the words ORDER BY, blanks between them, and does not go
on with a further letter of a word. -/
def startsWithOrderBy (s : List Char) : Bool :=
  match dropWord? ['o', 'r', 'd', 'e', 'r'] s with
  | none => false
  | some r =>
      match r with
      | [] => false
      | c :: _ =>
          Text.isBlank c &&
            match dropWord? ['b', 'y'] (Text.dropBlanks r) with
            | none => false
            | some [] => true
            | some (c :: _) => !Text.isWordChar c

/-- Whether the words ORDER BY stand in a text; `inWord` tells whether the character
before it belongs to a word. -/
def hasOrderByFrom (inWord : Bool) : List Char → Bool
  | [] => false
  | c :: r =>
      (!inWord && startsWithOrderBy (c :: r)) || hasOrderByFrom (Text.isWordChar c) r

/-- Whether the words ORDER BY stand in a text. -/
def hasOrderBy (s : List Char) : Bool := hasOrderByFrom false s

end RealmDirectory.Statement
