import RealmDirectory.Text.Blank
import RealmDirectory.Text.Piece

/-!
# Media types

A request names the type of its body as `type/subtype`, where a subtype can have a suffix
behind a plus sign, followed by parameters behind semicolons. The body is JSON for the
subtype `json` and for the suffix `json` of the type `application`, in either case of the
letters. What is no media type names no JSON.

## Main definitions

* `MediaType.read?`: the media type of a text.
* `MediaType.isJson`: whether a text names JSON.
-/

namespace RealmDirectory

/-- A type with its subtype and the suffix of the subtype. -/
structure MediaType where
  type : List Char
  subtype : List Char
  suffix : Option (List Char)
  deriving DecidableEq, Repr

namespace MediaType

/-- Whether a character can stand in a type, a subtype or a parameter. -/
def isToken (c : Char) : Bool :=
  c.isAlphanum ||
    ['!', '#', '$', '%', '&', '\'', '*', '+', '-', '.', '^', '_', '\x60', '|', '~'].contains c

/-- Whether a character can stand in quotes. -/
def isQuotable (c : Char) : Bool := 31 < c.toNat && c.toNat != 127 && c != '"'

/-- What follows a quoted value: spaces, and the next semicolon or the end. -/
def afterQuoted? (s : List Char) : Option (List Char) :=
  match s.dropWhile (· == ' ') with
  | [] => some []
  | c :: r => if c = ';' then some r else none

/-- What follows the value of a parameter; none when there is no value. -/
def afterValue? : List Char → Option (List Char)
  | '"' :: r =>
      match r.dropWhile isQuotable with
      | '"' :: rest => if (r.takeWhile isQuotable).isEmpty then none else afterQuoted? rest
      | _ => none
  | s =>
      match s.dropWhile isToken with
      | [] => some []
      | c :: r => if c = ';' ∧ !(s.takeWhile isToken).isEmpty then some r else none

/-- Whether a text holds parameters between semicolons, at most `fuel` of them. -/
def areParameters : Nat → List Char → Bool
  | 0, s => s.isEmpty
  | fuel + 1, s =>
      let s := s.dropWhile (· == ' ')
      if s.isEmpty then true
      else
        match s.dropWhile isToken with
        | '=' :: r =>
            if (s.takeWhile isToken).isEmpty then false
            else
              match afterValue? r with
              | some rest => areParameters fuel rest
              | none => false
        | _ => false

/-- A subtype cut at its last plus sign, unless that stands at its start. -/
def splitSuffix (s : List Char) : List Char × Option (List Char) :=
  let suffix := (s.reverse.takeWhile (· != '+')).reverse
  let size := s.length - suffix.length
  if size ≤ 1 then (s, none) else (s.take (size - 1), some suffix)

/-- The media type of a text. -/
def read? (s : String) : Option MediaType :=
  let type := s.toList.takeWhile isToken
  match s.toList.dropWhile isToken with
  | '/' :: r =>
      let subtype := r.takeWhile isToken
      let fits := match r.dropWhile isToken with
        | [] => true
        | ';' :: parameters => !subtype.isEmpty && areParameters parameters.length parameters
        | _ => false
      if !type.isEmpty && fits then
        let (name, suffix) := splitSuffix subtype
        some ⟨type.map Char.toLower, name.map Char.toLower, suffix.map (·.map Char.toLower)⟩
      else none
  | _ => none

/-- Whether a media type is JSON. -/
def namesJson (m : MediaType) : Bool :=
  m.type == "application".toList &&
    (m.subtype == "json".toList || m.suffix == some "json".toList)

/-- Whether a text names JSON. -/
def isJson (s : String) : Bool := ((read? s).map namesJson).getD false

end MediaType

end RealmDirectory
