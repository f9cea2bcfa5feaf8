import RealmDirectory.Number.Binary64
import RealmDirectory.Text.Hex

/-!
# JSON events

A JSON text is read from left to right as a list of events: brackets, keys and plain
values in the order of the text. Where the text stops being JSON, the list ends with the
event `broken`. Whoever reads a form from the events therefore learns which comes first,
a value that does not fit or a fault of the text.

Escapes in a text can leave half of a surrogate pair alone. Such a text has no characters,
but it can stand where nobody looks at it.

## Main definitions

* `JsonEvent`: one event.
* `JsonEvent.ofText`: the events of a text.
* `JsonEvent.skipValue`: the events behind a value.
-/

namespace RealmDirectory

/-- One event of a JSON text. -/
inductive JsonEvent where
  | null
  | bool (value : Bool)
  /-- A number, and whether a floating-point number comes near it. -/
  | number (finite : Bool)
  | text (value : Option String)
  | startArray
  | endArray
  | startObject
  | key (name : Option String)
  | endObject
  /-- The text is no JSON from here on. -/
  | broken
  deriving DecidableEq, Repr

namespace JsonEvent

/-! ### Texts -/

/-- A part of a quoted text: a character, or a unit of 16 bits that is written in
hexadecimal. -/
inductive TextPart where
  | plain (c : Char)
  | unit (n : Nat)
  deriving DecidableEq, Repr

/-- The character of an escape of one letter. -/
def escaped? : Char → Option Char
  | '"' => some '"'
  | '\\' => some '\\'
  | '/' => some '/'
  | 'b' => some '\x08'
  | 'f' => some '\x0c'
  | 'n' => some '\n'
  | 'r' => some '\r'
  | 't' => some '\t'
  | _ => none

/-- The number of four hexadecimal digits. -/
def unit? (a b c d : Char) : Option Nat := do
  let a ← Text.hexValue? a
  let b ← Text.hexValue? b
  let c ← Text.hexValue? c
  let d ← Text.hexValue? d
  some (((a * 16 + b) * 16 + c) * 16 + d)

/-- The parts of a quoted text behind its first quote, and what follows its last one. -/
def readParts? : List Char → Option (List TextPart × List Char)
  | [] => none
  | '"' :: r => some ([], r)
  | '\\' :: 'u' :: a :: b :: c :: d :: r => do
      let n ← unit? a b c d
      let (parts, rest) ← readParts? r
      some (.unit n :: parts, rest)
  | '\\' :: e :: r => do
      let c ← escaped? e
      let (parts, rest) ← readParts? r
      some (.plain c :: parts, rest)
  | c :: r =>
      if c = '\\' ∨ c.toNat < 0x20 then none
      else (readParts? r).map fun p => (.plain c :: p.1, p.2)

/-- The characters of parts: two units that form a surrogate pair are one character, and
half of a pair is none. -/
def characters? : List TextPart → Option (List Char)
  | [] => some []
  | .plain c :: r => (characters? r).map (c :: ·)
  | .unit n :: r =>
      if n < 0xD800 ∨ 0xE000 ≤ n then (characters? r).map (Char.ofNat n :: ·)
      else
        match r with
        | .unit m :: r =>
            if n < 0xDC00 ∧ 0xDC00 ≤ m ∧ m < 0xE000 then
              (characters? r).map
                (Char.ofNat (0x10000 + (n - 0xD800) * 0x400 + (m - 0xDC00)) :: ·)
            else none
        | _ => none

/-- The text behind its first quote, when it has one, and what follows its last one. -/
def readText? (s : List Char) : Option (Option String × List Char) :=
  (readParts? s).map fun p => ((characters? p.1).map String.ofList, p.2)

/-! ### Numbers -/

/-- The digits at the start of a text, of which there has to be one, and the rest. -/
def digits? (s : List Char) : Option (List Char × List Char) :=
  let d := s.takeWhile Decimal.isDigit
  if d.isEmpty then none else some (d, s.dropWhile Decimal.isDigit)

/-- The whole part of a number: a zero, or digits that do not start with one. -/
def wholePart? : List Char → Option (List Char × List Char)
  | '0' :: r => if (r.head?.map Decimal.isDigit).getD false then none else some (['0'], r)
  | s => digits? s

/-- The fraction of a number, when there is one. -/
def fractionPart? : List Char → Option (List Char × List Char)
  | '.' :: r => (digits? r).map fun p => ('.' :: p.1, p.2)
  | s => some ([], s)

/-- The exponent of a number, when there is one. -/
def exponentPart? : List Char → Option (List Char × List Char)
  | [] => some ([], [])
  | c :: r =>
      if c = 'e' ∨ c = 'E' then
        match r with
        | '+' :: r => (digits? r).map fun p => (c :: '+' :: p.1, p.2)
        | '-' :: r => (digits? r).map fun p => (c :: '-' :: p.1, p.2)
        | r => (digits? r).map fun p => (c :: p.1, p.2)
      else some ([], c :: r)

/-- Whether a numeral comes near a floating-point number. -/
def isFinite (numeral : List Char) : Bool :=
  match Binary64.read? numeral with
  | some (.finite _ _ _) => true
  | _ => false

/-- The number without a sign at the start of a text, as an event. -/
def readNumber? (s : List Char) : Option (JsonEvent × List Char) := do
  let (whole, r) ← wholePart? s
  let (fraction, r) ← fractionPart? r
  let (exponent, r) ← exponentPart? r
  some (.number (isFinite (whole ++ fraction ++ exponent)), r)

/-! ### Values -/

/-- The value at the start of a text that is no bracket, as an event. -/
def readPlain? : List Char → Option (JsonEvent × List Char)
  | '"' :: r => (readText? r).map fun p => (.text p.1, p.2)
  | '-' :: r => readNumber? r
  | 'n' :: 'u' :: 'l' :: 'l' :: r => some (.null, r)
  | 't' :: 'r' :: 'u' :: 'e' :: r => some (.bool true, r)
  | 'f' :: 'a' :: 'l' :: 's' :: 'e' :: r => some (.bool false, r)
  | s => readNumber? s

/-- A container that is open. -/
inductive Container where
  | array
  | object
  deriving DecidableEq, Repr

/-- What can come next. -/
inductive Expected where
  | value
  /-- A value, or the end of the array that was just opened. -/
  | firstItem
  /-- A key, or the end of the object that was just opened. -/
  | firstKey
  | key
  | colon
  /-- A comma, or the end of the innermost container. -/
  | next
  deriving DecidableEq, Repr

/-- Whether a character separates without a meaning. -/
def isSpace (c : Char) : Bool := c == ' ' || c == '\n' || c == '\t' || c == '\r'

/-- Reads the key at the start of a text. -/
def readKey? : List Char → Option (JsonEvent × List Char)
  | '"' :: r => (readText? r).map fun p => (.key p.1, p.2)
  | _ => none

/-- The events of a text, given what is open and what can come next. Every step takes at
least one character; `fuel` bounds their number. -/
def read : Nat → List Container → Expected → List Char → List JsonEvent
  | 0, _, _, _ => [broken]
  | fuel + 1, stack, expected, s =>
      match s.dropWhile isSpace, expected, stack with
      | [], .next, [] => []
      | ']' :: r, .firstItem, .array :: stack => endArray :: read fuel stack .next r
      | ']' :: r, .next, .array :: stack => endArray :: read fuel stack .next r
      | '\x7d' :: r, .firstKey, .object :: stack => endObject :: read fuel stack .next r
      | '\x7d' :: r, .next, .object :: stack => endObject :: read fuel stack .next r
      | ',' :: r, .next, .array :: stack => read fuel (.array :: stack) .value r
      | ',' :: r, .next, .object :: stack => read fuel (.object :: stack) .key r
      | ':' :: r, .colon, stack => read fuel stack .value r
      | _, .next, _ => [broken]
      | _, .colon, _ => [broken]
      | s, .key, stack => emit fuel stack .colon (readKey? s)
      | s, .firstKey, stack => emit fuel stack .colon (readKey? s)
      | '[' :: r, _, stack => startArray :: read fuel (.array :: stack) .firstItem r
      | '\x7b' :: r, _, stack => startObject :: read fuel (.object :: stack) .firstKey r
      | s, _, stack => emit fuel stack .next (readPlain? s)
where
  /-- An event that was read, with those behind it. -/
  emit (fuel : Nat) (stack : List Container) (expected : Expected) :
      Option (JsonEvent × List Char) → List JsonEvent
    | some (event, r) => event :: read fuel stack expected r
    | none => [broken]

/-- The events of a text. -/
def ofText (s : String) : List JsonEvent := read (s.toList.length + 1) [] .value s.toList

/-- The events behind the value that comes next, given how many containers of it are
open; none when the text breaks before its end. -/
def skipFrom : Nat → List JsonEvent → Option (List JsonEvent)
  | _, [] => none
  | depth, e :: r =>
      match e with
      | broken => none
      | startArray | startObject => skipFrom (depth + 1) r
      | key _ => skipFrom depth r
      | endArray | endObject => if depth ≤ 1 then some r else skipFrom (depth - 1) r
      | _ => if depth = 0 then some r else skipFrom depth r

/-- The events behind the value that comes next. -/
def skipValue (l : List JsonEvent) : Option (List JsonEvent) := skipFrom 0 l

end JsonEvent

end RealmDirectory
