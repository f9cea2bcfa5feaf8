import RealmDirectory.Url.Host

/-!
# URLs

A URL has a scheme and what follows its colon. When two slashes follow, there is an
authority: a user name and a password in front of an at sign, a host, and a port. Then
come a path, a query and a fragment. Reading normalises: characters that a part cannot
hold are percent-encoded, dot segments are resolved, and the scheme's usual port is left
out.

A handful of schemes, those that browsers know, take backslashes for slashes and always
have a host.

## Main definitions

* `Url.parse`, `Url.render`: reading and writing.
* `Url.withUsername`, `Url.withPassword`: the URL with other credentials.
-/

namespace RealmDirectory

/-- Who connects to what. -/
structure Authority where
  /-- The user name, percent-encoded; empty when there is none. -/
  username : String := ""
  /-- The password, percent-encoded; empty when there is none. -/
  password : String := ""
  /-- The host. -/
  host : Host
  /-- The port, unless it is the scheme's usual one. -/
  port : Option UInt16 := none
  deriving DecidableEq, Repr

/-- A URL in its parts, each percent-encoded. -/
structure Url where
  /-- The scheme, in lower case. -/
  scheme : String
  /-- What follows two slashes behind the scheme. -/
  authority : Option Authority
  /-- The path, with its slashes. -/
  path : String
  /-- The text behind the question mark. -/
  query : Option String := none
  /-- The text behind the number sign. -/
  fragment : Option String := none
  deriving DecidableEq, Repr

namespace Url

/-! ### Schemes -/

/-- The schemes that browsers know, with their usual ports. -/
def knownSchemes : List (String × Option Nat) :=
  [("http", some 80), ("https", some 443), ("ws", some 80), ("wss", some 443),
    ("ftp", some 21), ("file", none)]

/-- Whether browsers know a scheme. -/
def isKnown (scheme : String) : Bool := (knownSchemes.lookup scheme).isSome

/-- Whether a character may stand in a scheme behind its first letter. -/
def isSchemeChar (c : Char) : Bool :=
  c.isAlphanum || c == '+' || c == '-' || c == '.'

/-- The scheme of a text and what follows its colon. -/
def cutScheme (s : List Char) : Option (String × List Char) :=
  match s with
  | c :: _ =>
      if !c.isAlpha then none
      else
        match s.dropWhile isSchemeChar with
        | ':' :: rest =>
            some (String.ofList ((s.takeWhile isSchemeChar).map Char.toLower), rest)
        | _ => none
  | [] => none

/-! ### Authorities -/

/-- The text before the last at sign and the text after it. -/
def cutLastAt (s : List Char) : Option (List Char × List Char) :=
  match (Text.splitOn '@' s).reverse with
  | last :: first :: r =>
      some (((first :: r).reverse.intersperse ['@']).flatten, last)
  | _ => none

/-- The user name and the password of a text before an at sign. -/
def parseUserinfo (s : List Char) : String × String :=
  let (username, password) := (Text.cut ':' s).getD (s, [])
  let encoded (t : List Char) := String.ofList (Percent.encode Percent.inUserinfo t)
  (encoded username, encoded password)

/-- The place of the colon in front of a port: the first one outside brackets. -/
def hostLength (inBrackets : Bool) : List Char → Nat
  | [] => 0
  | c :: r =>
      if c = ':' && !inBrackets then 0
      else 1 + hostLength (if c = '[' then true else if c = ']' then false else inBrackets) r

/-- The port of digits. A text without digits names none, and neither does the scheme's
usual port. -/
def parsePort (scheme : String) (s : List Char) : Except UrlFault (Option UInt16) :=
  if s.isEmpty then .ok none
  else
    match s.mapM Text.digitValue?, Text.readDigits 65535 0 s with
    | some _, some n =>
        if knownSchemes.lookup scheme = some (some n) then .ok none else .ok (some n.toUInt16)
    | _, _ => .error .badPort

/-- A host with an optional port, and what is left of a text behind them. A backslash ends
a port. -/
def parseHostPort (scheme : String) (s : List Char) :
    Except UrlFault ((Host × Option UInt16) × List Char) := do
  let length := hostLength false s
  let hostText := s.take length
  let portText := s.drop length
  let mayLackHost := portText.isEmpty && (!isKnown scheme || scheme == "file")
  let host ←
    if hostText.isEmpty then
      if mayLackHost then .ok Host.empty else .error .emptyHost
    else Host.parse (isKnown scheme) hostText
  let port ← parsePort scheme ((portText.drop 1).takeWhile (· != '\\'))
  .ok ((host, port), portText.dropWhile (· != '\\'))

/-- The authority of a text, and what is left behind its port. Credentials need a host,
and so does a lone at sign unless the whole URL ends with it. -/
def parseAuthority (scheme : String) (atEnd : Bool) (s : List Char) :
    Except UrlFault (Authority × List Char) :=
  match cutLastAt s with
  | none => do
      let ((host, port), rest) ← parseHostPort scheme s
      .ok ({ host, port }, rest)
  | some (before, behind) => do
      let (username, password) := parseUserinfo before
      if before.isEmpty && behind.isEmpty && !atEnd then .error .emptyHost
      else
        let ((host, port), rest) ← parseHostPort scheme behind
        if host = .empty ∧ (username ≠ "" ∨ password ≠ "") then .error .emptyHost
        else .ok ({ username, password, host, port }, rest)

/-! ### Paths -/

/-- The segments of a path between its slashes. -/
def splitPath (known : Bool) (s : List Char) : List (List Char) :=
  Text.splitOn '/' (if known then s.map fun c => if c = '\\' then '/' else c else s)

/-- The number of dots that a segment stands for when it has nothing but dots. A dot may
be percent-encoded. -/
def dots? : List Char → Option Nat
  | [] => some 0
  | '.' :: r => (dots? r).map (· + 1)
  | '%' :: '2' :: e :: r => if e = 'e' ∨ e = 'E' then (dots? r).map (· + 1) else none
  | _ => none

/-- Whether a segment is a drive letter. -/
def isDriveLetter : List Char → Bool
  | [c, d] => c.isAlpha && (d == ':' || d == '|')
  | _ => false

/-- The segments without the last one; a drive letter stays. -/
def dropSegment (done : List (List Char)) : List (List Char) :=
  match done.getLast? with
  | some s => if isDriveLetter s then done else done.dropLast
  | none => []

/-- Resolves the dot segments of a path, behind segments that are done. -/
def resolveFrom (done : List (List Char)) : List (List Char) → List (List Char)
  | [] => done
  | s :: r =>
      let next :=
        match dots? s with
        | some 1 => if r.isEmpty then done ++ [[]] else done
        | some 2 => if r.isEmpty then dropSegment done ++ [[]] else dropSegment done
        | _ => done ++ [Percent.encode Percent.inPath s]
      resolveFrom next r

/-- The text of a path's segments. -/
def joinPath (segments : List (List Char)) : String :=
  String.ofList (segments.flatMap fun s => '/' :: s)

/-- The path behind an authority. It begins with a slash unless it is empty; the schemes
that browsers know have no empty path. -/
def parsePath (known : Bool) (s : List Char) : String :=
  if s.isEmpty then (if known then "/" else "")
  else
    match splitPath known s with
    | [] :: r => joinPath (resolveFrom [] r)
    | l => joinPath (resolveFrom [] l)

/-! ### Reading and writing -/

/-- The text without tabs and line breaks anywhere, and without control characters and
blanks at its ends. -/
def clean (s : List Char) : List Char :=
  let atEnds (c : Char) : Bool := c.toNat ≤ 0x20
  let trimmed := ((s.dropWhile atEnds).reverse.dropWhile atEnds).reverse
  trimmed.filter fun c => !(c == '\t' || c == '\n' || c == '\r')

/-- The text before a character and, when it occurs, the text after it. -/
def cutOptional (c : Char) (s : List Char) : List Char × Option (List Char) :=
  match Text.cut c s with
  | some (before, behind) => (before, some behind)
  | none => (s, none)

/-- The characters that are encoded in the query of a scheme. -/
def inQueryOf (known : Bool) (c : Char) : Bool :=
  Percent.inQuery c || (known && c == '\'')

/-- What follows the two slashes of an authority, when there is one. -/
def authorityText? (scheme : String) (rest : List Char) : Option (List Char) :=
  if isKnown scheme && scheme ≠ "file" then
    some (rest.dropWhile fun c => c == '/' || c == '\\')
  else
    match rest with
    | '/' :: '/' :: r => some r
    | _ => none

/-- The URL of a text. -/
def parse (text : String) : Except UrlFault Url := do
  match cutScheme (clean text.toList) with
  | none => .error .noScheme
  | some (scheme, rest) =>
      let known := isKnown scheme
      let (rest, fragment) := cutOptional '#' rest
      let fragment := fragment.map fun f => String.ofList (Percent.encode Percent.inFragment f)
      let (rest, query) := cutOptional '?' rest
      let query := query.map fun q => String.ofList (Percent.encode (inQueryOf known) q)
      match authorityText? scheme rest with
      | some s =>
          let inAuthority (c : Char) : Bool := c != '/' && (!known || c != '\\')
          let path := s.dropWhile inAuthority
          let atEnd := path.isEmpty && query.isNone && fragment.isNone
          let (authority, rest) ← parseAuthority scheme atEnd (s.takeWhile inAuthority)
          let path := parsePath known (rest ++ path)
          .ok { scheme, authority := some authority, path, query, fragment }
      | none =>
          let path := match rest with
            | '/' :: _ => parsePath known rest
            | _ => String.ofList (Percent.encode Percent.isControl rest)
          .ok { scheme, authority := none, path, query, fragment }

/-- The user name and the password in front of an at sign. -/
def renderUserinfo (a : Authority) : String :=
  if a.username = "" ∧ a.password = "" then ""
  else a.username ++ (if a.password = "" then "" else ":" ++ a.password) ++ "@"

/-- The text of an authority. -/
def renderAuthority (a : Authority) : String :=
  renderUserinfo a ++ a.host.render ++
    match a.port with
    | some p => ":" ++ String.ofList (Text.decimal p.toNat)
    | none => ""

/-- The text of a URL. -/
def render (u : Url) : String :=
  u.scheme ++ ":" ++
    (match u.authority with
      | some a => "//" ++ renderAuthority a
      | none => "") ++
    u.path ++
    (match u.query with
      | some q => "?" ++ q
      | none => "") ++
    (match u.fragment with
      | some f => "#" ++ f
      | none => "")

/-! ### Credentials -/

/-- The authority that can carry credentials: one with a host, but not of a file. -/
def carrier? (u : Url) : Option Authority :=
  if u.scheme = "file" then none else u.authority.filter fun a => a.host ≠ .empty

/-- The URL with another user name. -/
def withUsername (u : Url) (username : String) : Option Url :=
  u.carrier?.map fun a =>
    let encoded := String.ofList (Percent.encode Percent.inUserinfo username.toList)
    { u with authority := some { a with username := encoded } }

/-- The URL with another password. -/
def withPassword (u : Url) (password : String) : Option Url :=
  u.carrier?.map fun a =>
    let encoded := String.ofList (Percent.encode Percent.inUserinfo password.toList)
    { u with authority := some { a with password := encoded } }

end Url

end RealmDirectory
