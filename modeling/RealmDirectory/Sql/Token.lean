import RealmDirectory.Sql.Value
import RealmDirectory.Text.Hex

/-!
# Tokens

The text of a statement is cut into words, literals, marks for bound values and symbols.
Spaces and comments separate tokens and mean nothing else. Every token remembers the text
that follows the place where it starts, since a selected expression without a name of its
own is labelled with its text.

## Main definitions

* `Token`, `TokenKind`: what a text is cut into.
* `Token.ofText?`: the tokens of a text; none when a part of it starts no token.
-/

namespace RealmDirectory.Sql

/-- What a token is. -/
inductive TokenKind where
  /-- A name or keyword as it is written. -/
  | word (name : List Char)
  /-- A name in double quotes, which can also be a text. -/
  | quoted (name : List Char)
  /-- A name in backticks or brackets. -/
  | enclosed (name : List Char)
  /-- A text in single quotes. -/
  | text (s : List Char)
  /-- A numeral. -/
  | numeral (s : List Char)
  /-- A whole number in hexadecimal. -/
  | whole (n : Int64)
  /-- Bytes in hexadecimal. -/
  | bytes (b : List UInt8)
  /-- A mark for a bound value; its number, counted from 1, when one is written. -/
  | mark (number : Option Nat)
  /-- Any other symbol. -/
  | symbol (s : List Char)
  deriving DecidableEq, Repr

/-- A token with the rest of the text from its start. -/
structure Token where
  kind : TokenKind
  /-- The text from the start of the token. -/
  start : List Char
  deriving DecidableEq, Repr

namespace Token

/-- Whether a character can stand in a name. -/
def isNameChar (c : Char) : Bool :=
  c.isAlphanum || c == '_' || c == '$' || 128 ≤ c.toNat

/-- Whether a character can start a name. -/
def startsName (c : Char) : Bool := c.isAlpha || c == '_' || 128 ≤ c.toNat

/-- What stands between quotes, the first of which was read, and the text behind the last
one. A quote that is written twice belongs to what is quoted. -/
def readQuoted? (quote : Char) : List Char → Option (List Char × List Char)
  | [] => none
  | [c] => if c = quote then some ([], []) else none
  | c :: d :: r =>
      if c = quote then
        if d = quote then (readQuoted? quote r).map fun p => (c :: p.1, p.2)
        else some ([], d :: r)
      else (readQuoted? quote (d :: r)).map fun p => (c :: p.1, p.2)

/-- What stands before a closing bracket, and the text behind it. -/
def readBracketed? : List Char → Option (List Char × List Char)
  | [] => none
  | c :: r =>
      if c = ']' then some ([], r) else (readBracketed? r).map fun p => (c :: p.1, p.2)

/-- The text behind a comment that runs to the end of its line. -/
def afterLine (s : List Char) : List Char := (s.dropWhile (· != '\n')).drop 1

/-- The text behind a comment between slashes and stars; it may also end with the text. -/
def afterStars : List Char → List Char
  | '*' :: '/' :: r => r
  | _ :: r => afterStars r
  | [] => []

/-- The digits of a numeral's exponent, sign included, when there is one. -/
def exponentPart : List Char → List Char
  | [] => []
  | c :: r =>
      if c = 'e' ∨ c = 'E' then
        match r with
        | [] => []
        | d :: t =>
            if d = '+' ∨ d = '-' then
              if (t.takeWhile Decimal.isDigit).isEmpty then []
              else c :: d :: t.takeWhile Decimal.isDigit
            else if Decimal.isDigit d then c :: (d :: t).takeWhile Decimal.isDigit
            else []
      else []

/-- The longest numeral at the start of a text. -/
def numeralPart (s : List Char) : List Char :=
  let whole := s.takeWhile Decimal.isDigit
  let rest := s.dropWhile Decimal.isDigit
  match rest with
  | '.' :: r =>
      let fraction := r.takeWhile Decimal.isDigit
      whole ++ '.' :: fraction ++ exponentPart (r.dropWhile Decimal.isDigit)
  | _ => whole ++ exponentPart rest

/-- The symbols of two characters. -/
def longSymbols : List (List Char) :=
  [['=', '='], ['<', '='], ['<', '>'], ['<', '<'], ['>', '='], ['>', '>'], ['!', '='],
    ['|', '|']]

/-- The symbols of one character. -/
def shortSymbols : List Char :=
  ['(', ')', ',', ';', '.', '*', '+', '-', '/', '%', '=', '<', '>', '|', '&', '~']

/-- The symbol at the start of a text, and the text behind it. -/
def readSymbol? (s : List Char) : Option (TokenKind × List Char) :=
  if longSymbols.contains (s.take 2) then some (.symbol (s.take 2), s.drop 2)
  else
    match s with
    | c :: r => if shortSymbols.contains c then some (.symbol [c], r) else none
    | [] => none

/-- The bytes of a literal behind its first quote, and the text behind it. -/
def readBytes? (s : List Char) : Option (TokenKind × List Char) := do
  let (digits, r) ← readQuoted? '\'' s
  let bytes ← Text.ofHex? digits
  some (.bytes bytes, r)

/-- The numeral at the start of a text. A name cannot follow without a space. -/
def readNumeral? (s : List Char) : Option (TokenKind × List Char) :=
  let numeral := numeralPart s
  let rest := s.drop numeral.length
  if (rest.head?.map isNameChar).getD false then none else some (.numeral numeral, rest)

/-- A whole number in hexadecimal, which wraps around at 64 bits. -/
def readHex? (s : List Char) : Option (TokenKind × List Char) := do
  let digits := s.takeWhile fun c => (Text.hexValue? c).isSome
  let rest := s.dropWhile fun c => (Text.hexValue? c).isSome
  let n ← (digits.mapM Text.hexValue?).map fun ds => ds.foldl (fun n d => 16 * n + d) 0
  if digits.isEmpty || 16 < (digits.dropWhile (· == '0')).length then none
  else if (rest.head?.map isNameChar).getD false then none
  else some (.whole (Int64.ofNat n), rest)

/-- The greatest number of a mark. -/
def greatestMark : Nat := 32766

/-- The number of a mark, which can be left out. -/
def readMark? (s : List Char) : Option (TokenKind × List Char) :=
  let digits := s.takeWhile Decimal.isDigit
  let rest := s.dropWhile Decimal.isDigit
  let n := Decimal.ofDigits digits
  if digits.isEmpty then some (.mark none, rest)
  else if 1 ≤ n && n ≤ greatestMark then some (.mark (some n), rest)
  else none

/-- The token at the start of a text, which begins with no space and no comment, and the
text behind it. -/
def readOne? : List Char → Option (TokenKind × List Char)
  | [] => none
  | '\'' :: r => (readQuoted? '\'' r).map fun p => (.text p.1, p.2)
  | '"' :: r => (readQuoted? '"' r).map fun p => (.quoted p.1, p.2)
  | '\x60' :: r => (readQuoted? '\x60' r).map fun p => (.enclosed p.1, p.2)
  | '[' :: r => (readBracketed? r).map fun p => (.enclosed p.1, p.2)
  | '?' :: r => readMark? r
  | '$' :: r => if (r.head?.map Decimal.isDigit).getD false then readMark? r else none
  | c :: r =>
      if (c = 'x' ∨ c = 'X') ∧ r.head? = some '\'' then readBytes? (r.drop 1)
      else if c = '0' ∧ (r.head? = some 'x' ∨ r.head? = some 'X') then readHex? (r.drop 1)
      else if Decimal.isDigit c ∨ (c = '.' ∧ (r.head?.map Decimal.isDigit).getD false) then
        readNumeral? (c :: r)
      else if startsName c then
        some (.word ((c :: r).takeWhile isNameChar), (c :: r).dropWhile isNameChar)
      else readSymbol? (c :: r)

/-- Reads at most `fuel` tokens, spaces and comments. -/
def readAll? : Nat → List Char → Option (List Token)
  | _, [] => some []
  | 0, _ => none
  | fuel + 1, c :: r =>
      if isSpace c then readAll? fuel r
      else
        match c, r with
        | '-', '-' :: t => readAll? fuel (afterLine t)
        | '/', '*' :: t => readAll? fuel (afterStars t)
        | _, _ =>
            match readOne? (c :: r) with
            | none => none
            | some (kind, rest) =>
                (readAll? fuel rest).map (⟨kind, c :: r⟩ :: ·)

/-- The tokens of a text. Each takes at least one character. -/
def ofText? (s : List Char) : Option (List Token) := readAll? s.length s

end Token

end RealmDirectory.Sql
