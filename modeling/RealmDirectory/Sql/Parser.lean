import RealmDirectory.Sql.Syntax
import RealmDirectory.Sql.Token

/-!
# Reading statements

Statements are read from their tokens. An expression is read with a level: it takes in
every operator that binds at least as strongly as the level. From the weakest, operators
are `OR`, `AND`, `NOT`, equality and `LIKE`, the order comparisons, those on bits, sums,
products, and `||`; a collation and then a sign bind strongest.

Reading goes down by a supply of steps, of which every expression and every operator uses
one. Between two tokens there are never more than four of them.

## Main definitions

* `Parser.expression`: an expression of a level.
* `Parser.query`: a query.
* `Command.read?`: the first statement of tokens, with the tokens behind it.
-/

namespace RealmDirectory.Sql

/-- The tokens to come and the number of marks read so far. -/
structure ParserState where
  tokens : List Token
  marks : Nat

/-- Reads a part of a statement, or finds that it is not there. -/
abbrev Parser := StateT ParserState Option

namespace Parser

/-! ### Words and symbols -/

/-- The words that cannot be names. -/
def reservedWords : List String :=
  ["ADD", "ALL", "ALTER", "AND", "AS", "AUTOINCREMENT", "BETWEEN", "CASE", "CHECK",
    "COLLATE", "COMMIT", "CONSTRAINT", "CREATE", "DEFAULT", "DEFERRABLE", "DELETE",
    "DISTINCT", "DROP", "ELSE", "ESCAPE", "EXCEPT", "EXISTS", "FOREIGN", "FROM", "GROUP",
    "HAVING", "IN", "INDEX", "INSERT", "INTERSECT", "INTO", "IS", "ISNULL", "JOIN",
    "LIMIT", "NOT", "NOTHING", "NOTNULL", "NULL", "ON", "OR", "ORDER", "PRIMARY",
    "REFERENCES", "RETURNING", "SELECT", "SET", "TABLE", "THEN", "TO", "TRANSACTION",
    "UNION", "UNIQUE", "UPDATE", "USING", "VALUES", "WHEN", "WHERE"]

/-- The words that cannot name a table or a value without `AS` in front. -/
def joinWords : List String :=
  ["CROSS", "FULL", "INDEXED", "INNER", "LEFT", "NATURAL", "OUTER", "RIGHT"]

/-- Whether a name is a word in either case of its letters. -/
def isWord (word : String) (name : List Char) : Bool :=
  name.map Char.toUpper == word.toList

/-- Whether a word can be a name. -/
def isName (name : List Char) : Bool := !reservedWords.any fun w => isWord w name

/-- The next token, if there is one. -/
def peek : Parser (Option TokenKind) := fun s => some (s.tokens.head?.map Token.kind, s)

/-- The text from the next token on. -/
def rest : Parser (List Char) := fun s => some ((s.tokens.head?.map Token.start).getD [], s)

/-- Takes the next token. -/
def next : Parser TokenKind := fun s =>
  match s.tokens with
  | [] => none
  | t :: r => some (t.kind, { s with tokens := r })

/-- Takes the next token when it is a certain word; tells whether it was. -/
def word? (word : String) : Parser Bool := do
  match ← peek with
  | some (.word name) => if isWord word name then do let _ ← next; return true else return false
  | _ => return false

/-- Takes words that have to be there. -/
def words (l : List String) : Parser Unit :=
  l.forM fun w => do if ← word? w then pure () else failure

/-- Takes the next token when it is a certain symbol; tells whether it was. -/
def symbol? (s : String) : Parser Bool := do
  if (← peek) == some (.symbol s.toList) then do let _ ← next; return true
  else return false

/-- Takes a symbol that has to be there. -/
def symbol (s : String) : Parser Unit := do
  if ← symbol? s then pure () else failure

/-- Takes a name. -/
def name : Parser (List Char) := do
  match ← next with
  | .word n => if isName n then return n else failure
  | .quoted n | .enclosed n | .text n => return n
  | _ => failure

/-- Takes a second name for a table or value, when there is one. -/
def alias? : Parser (Option (List Char)) := do
  if ← word? "AS" then return some (← name)
  match ← peek with
  | some (.word n) =>
      if isName n && !(joinWords.any fun w => isWord w n) then return some (← name)
      else return none
  | some (.quoted _) | some (.enclosed _) | some (.text _) => return some (← name)
  | _ => return none

/-- Reads items between commas, at most `fuel` of them. -/
def separated {α : Type} (item : Parser α) : Nat → Parser (List α)
  | 0 => failure
  | fuel + 1 => do
      let first ← item
      if ← symbol? "," then return first :: (← separated item fuel) else return [first]

/-! ### Operators -/

/-- The level of `OR`, the weakest operator. -/
def orLevel : Nat := 1
def andLevel : Nat := 2
def notLevel : Nat := 3
def equalityLevel : Nat := 4
def orderLevel : Nat := 5
def bitLevel : Nat := 6
def sumLevel : Nat := 7
def productLevel : Nat := 8
def appendLevel : Nat := 9
def collationLevel : Nat := 10
def signLevel : Nat := 11

/-- The operator of a symbol, which takes the operand before it and the one behind it,
with its level. -/
def operator? (symbol : List Char) :
    Option ((Expr ColumnName → Expr ColumnName → Expr ColumnName) × Nat) :=
  match symbol with
  | ['|', '|'] => some (.append, appendLevel)
  | ['*'] => some (.operate .mul, productLevel)
  | ['/'] => some (.operate .div, productLevel)
  | ['%'] => some (.operate .rem, productLevel)
  | ['+'] => some (.operate .add, sumLevel)
  | ['-'] => some (.operate .sub, sumLevel)
  | ['&'] => some (.operate .bitAnd, bitLevel)
  | ['|'] => some (.operate .bitOr, bitLevel)
  | ['<', '<'] => some (.operate .shiftLeft, bitLevel)
  | ['>', '>'] => some (.operate .shiftRight, bitLevel)
  | ['='] | ['=', '='] => some (.compare .eq, equalityLevel)
  | ['<', '>'] | ['!', '='] => some (.compare .ne, equalityLevel)
  | ['<'] => some (.compare .lt, orderLevel)
  | ['<', '='] => some (.compare .le, orderLevel)
  | ['>'] => some (.compare .gt, orderLevel)
  | ['>', '='] => some (.compare .ge, orderLevel)
  | _ => none

/-- A call of a function by name, when there is one for these arguments. -/
def call? (name : List Char) (arguments : List (Expr ColumnName)) :
    Option (Expr ColumnName) :=
  let name := name.map Char.toUpper
  let count := arguments.length
  match Aggregate.ofName? name count, Function.ofName? name count, arguments with
  | some f, _, l => some (.aggregate f false l)
  | none, some f, l => some (.call f l)
  | none, none, [] => if isWord "COUNT" name then some .countRows else none
  | none, none, [a, b, c] => if isWord "IIF" name then some (.choose a b c) else none
  | none, none, _ => none

/-- A value between two bounds. -/
def between (e low high : Expr ColumnName) : Expr ColumnName :=
  .and (.compare .ge e low) (.compare .le e high)

/-- The expression, or its opposite. -/
def negatedIf (negated : Bool) (e : Expr ColumnName) : Expr ColumnName :=
  if negated then .not e else e

/-- Sameness with another value. A truth value that is written as a word asks for the
outcome of a condition. -/
def sameAs (e : Expr ColumnName) : Expr ColumnName → Expr ColumnName
  | .column ⟨none, n, false⟩ =>
      if isWord "TRUE" n then .outcome true e
      else if isWord "FALSE" n then .outcome false e
      else .same e (.column ⟨none, n, false⟩)
  | r => .same e r

/-! ### Expressions -/

/-- The number of a numeral with a sign in front. -/
def numeral (negative : Bool) (s : List Char) : Parser (Expr ColumnName) :=
  match Value.ofNumeral? negative s with
  | some v => return .literal v
  | none => failure

/-- A mark for a bound value: the one with a number, or else the next one. -/
def mark (number : Option Nat) : Parser (Expr ColumnName) := fun s =>
  match number with
  | some n => some (.mark (n - 1), s)
  | none => some (.mark s.marks, { s with marks := s.marks + 1 })

/-- A column whose first name was read: the next name may follow a point. -/
def column (first : List Char) (quoted : Bool) : Parser (Expr ColumnName) := do
  if ← symbol? "." then return .column ⟨some first, ← name, false⟩
  else return .column ⟨none, first, quoted⟩

/-- Reads the words of a declared type, with at most `fuel` of them. -/
def declaredType : Nat → Parser (List Char)
  | 0 => return []
  | fuel + 1 => do
      match ← peek with
      | some (.word n) =>
          if isName n then do
            let _ ← next
            return n ++ ' ' :: (← declaredType fuel)
          else return []
      | _ => return []

mutual

/-- Reads an expression of a level. -/
def expression : Nat → Nat → Parser (Expr ColumnName)
  | 0, _ => failure
  | fuel + 1, level => do
      let e ← operand fuel
      operators fuel level e

/-- Reads an expression without its operators. -/
def operand : Nat → Parser (Expr ColumnName)
  | 0 => failure
  | fuel + 1 => do
      match ← next with
      | .numeral s => numeral false s
      | .whole n => return .literal (.integer n)
      | .text s => return .literal (.text s)
      | .bytes b => return .literal (.blob b)
      | .mark number => mark number
      | .quoted n => column n true
      | .enclosed n => column n false
      | .symbol ['('] =>
          let e ← expression fuel orLevel
          symbol ")"
          return e
      | .symbol ['+'] => return .positive (← expression fuel signLevel)
      | .symbol ['~'] => return .complement (← expression fuel signLevel)
      | .symbol ['-'] =>
          match ← peek with
          | some (.numeral s) =>
              let _ ← next
              numeral true s
          | _ => return .negative (← expression fuel signLevel)
      | .word n =>
          if isWord "NULL" n then return .literal .null
          else if isWord "NOT" n then return .not (← expression fuel notLevel)
          else if isWord "CASE" n then choice fuel
          else if !isName n then failure
          else if ← symbol? "(" then
            if isWord "CAST" n then castOf fuel else callOf fuel n
          else column n false
      | _ => failure

/-- Reads the branches of a choice, whose first word was read. -/
def choice (fuel : Nat) : Parser (Expr ColumnName) :=
  match fuel with
  | 0 => failure
  | fuel + 1 => do
      if ← word? "WHEN" then branches fuel none
      else do
        let subject ← expression fuel orLevel
        words ["WHEN"]
        branches fuel (some subject)

/-- Reads a branch of a choice behind its first word, and the branches that follow. -/
def branches : Nat → Option (Expr ColumnName) → Parser (Expr ColumnName)
  | 0, _ => failure
  | fuel + 1, subject => do
      let e ← expression fuel orLevel
      words ["THEN"]
      let yes ← expression fuel orLevel
      let no ←
        if ← word? "WHEN" then branches fuel subject
        else if ← word? "ELSE" then do
          let e ← expression fuel orLevel
          words ["END"]
          pure e
        else do
          words ["END"]
          pure (.literal .null)
      match subject with
      | some s => return .choose (.compare .eq s e) yes no
      | none => return .choose e yes no

/-- Reads a value and the type that it is turned into, behind the opening bracket. -/
def castOf (fuel : Nat) : Parser (Expr ColumnName) :=
  match fuel with
  | 0 => failure
  | fuel + 1 => do
      let e ← expression fuel orLevel
      words ["AS"]
      let declared ← declaredType fuel
      if ← symbol? "(" then do
        let _ ← arguments fuel
        symbol ")"
      symbol ")"
      return .cast e (.ofDeclared declared)

/-- Reads the arguments of a function behind the opening bracket. -/
def callOf (fuel : Nat) (f : List Char) : Parser (Expr ColumnName) :=
  match fuel with
  | 0 => failure
  | fuel + 1 => do
      let once ← word? "DISTINCT"
      let arguments ←
        if ← symbol? ")" then pure []
        else if ← symbol? "*" then do
          symbol ")"
          if isWord "COUNT" f then pure [] else failure
        else do
          let l ← arguments fuel
          symbol ")"
          pure l
      match call? f arguments, once with
      | some (.aggregate f _ [e]), true => return .aggregate f true [e]
      | some e, false => return e
      | _, _ => failure

/-- Reads expressions between commas. -/
def arguments : Nat → Parser (List (Expr ColumnName))
  | 0 => failure
  | fuel + 1 => do
      let e ← expression fuel orLevel
      if ← symbol? "," then return e :: (← arguments fuel) else return [e]

/-- Reads the operators of a level and above behind an expression. -/
def operators : Nat → Nat → Expr ColumnName → Parser (Expr ColumnName)
  | 0, _, _ => failure
  | fuel + 1, level, e => do
      match ← peek with
      | some (.symbol s) =>
          match operator? s with
          | some (combine, own) =>
              if level ≤ own then do
                let _ ← next
                let r ← expression fuel (own + 1)
                operators fuel level (combine e r)
              else return e
          | none => return e
      | some (.word n) =>
          if isWord "AND" n && level ≤ andLevel then do
            let _ ← next
            let r ← expression fuel notLevel
            operators fuel level (.and e r)
          else if isWord "OR" n && level ≤ orLevel then do
            let _ ← next
            let r ← expression fuel andLevel
            operators fuel level (.or e r)
          else if isWord "COLLATE" n && level ≤ collationLevel then do
            let _ ← next
            match Collation.ofName? (← name) with
            | some c => operators fuel level (.collate e c)
            | none => failure
          else if level ≤ equalityLevel then do
            match ← wordOperator fuel e with
            | some e => operators fuel level e
            | none => return e
          else return e
      | _ => return e

/-- Reads an operator that is a word and binds as strongly as equality. -/
def wordOperator : Nat → Expr ColumnName → Parser (Option (Expr ColumnName))
  | 0, _ => failure
  | fuel + 1, e => do
      if ← word? "ISNULL" then return some (.same e (.literal .null))
      else if ← word? "NOTNULL" then return some (.not (.same e (.literal .null)))
      else if ← word? "IS" then do
        let negated ← word? "NOT"
        let r ← expression fuel orderLevel
        return some (negatedIf negated (sameAs e r))
      else do
        let negated ← word? "NOT"
        if ← word? "LIKE" then do
          let pattern ← expression fuel orderLevel
          if ← word? "ESCAPE" then do
            let escape ← expression fuel orderLevel
            return some (negatedIf negated (.likeEscape e pattern escape))
          else return some (negatedIf negated (.like e pattern))
        else if ← word? "BETWEEN" then do
          let low ← expression fuel notLevel
          words ["AND"]
          let high ← expression fuel orderLevel
          return some (negatedIf negated (between e low high))
        else if ← word? "IN" then do
          symbol "("
          let l ← if ← symbol? ")" then pure [] else do
            let l ← arguments fuel
            symbol ")"
            pure l
          return some (negatedIf negated (.among e l))
        else if negated then
          if ← word? "NULL" then return some (.not (.same e (.literal .null)))
          else failure
        else return none

end

/-- The steps that the tokens to come can take. -/
def supply : Parser Nat := fun s => some (4 * s.tokens.length + 4, s)

/-- Reads an expression. -/
def whole : Parser (Expr ColumnName) := do expression (← supply) orLevel

/-- Reads an expression behind a word, when the word is there. -/
def clause? (word : String) : Parser (Option (Expr ColumnName)) := do
  if ← word? word then return some (← whole) else return none

/-! ### Queries -/

/-- Whether a token is the symbol of a table's columns. -/
def isStar (t : Token) : Bool := t.kind == .symbol ['*']

/-- The table whose columns are all selected, when that comes next. -/
def tableStar? : Parser (Option (List Char)) := fun s =>
  match s.tokens with
  | ⟨.word n, _⟩ :: point :: star :: r =>
      if point.kind == .symbol ['.'] && isStar star then
        some (some n, { s with tokens := r })
      else some (none, s)
  | _ => some (none, s)

/-- The text of the tokens between two places of a text, without the spaces around it. -/
def between? (start behind : List Char) : List Char :=
  let written := start.take (start.length - behind.length)
  Text.dropEndWhile isSpace (written.dropWhile isSpace)

/-- Reads one selected item. -/
def item : Parser (Item ColumnName) := do
  if ← symbol? "*" then return .everything
  match ← tableStar? with
  | some table => return .table table
  | none =>
      let start ← rest
      let e ← whole
      let behind ← rest
      return .value e (← alias?) (between? start behind)

/-- Reads one key of an order. -/
def sortKey : Parser (SortKey ColumnName) := do
  let key ← whole
  let descending ← word? "DESC"
  if !descending then do let _ ← word? "ASC"
  if ← word? "NULLS" then
    if ← word? "FIRST" then return ⟨key, descending, true⟩
    else do
      words ["LAST"]
      return ⟨key, descending, false⟩
  else return ⟨key, descending, !descending⟩

/-- Reads the keys of an order, when there is one. -/
def order : Parser (List (SortKey ColumnName)) := do
  if ← word? "ORDER" then do
    words ["BY"]
    separated sortKey (← supply)
  else return []

/-- Reads the bounds of a query: the number of rows kept, and the number skipped. With a
comma between them, the number skipped comes first. -/
def bounds : Parser (Option (Expr ColumnName) × Option (Expr ColumnName)) := do
  match ← clause? "LIMIT" with
  | none => return (none, none)
  | some first =>
      if ← symbol? "," then do
        let second ← whole
        return (some second, some first)
      else return (some first, ← clause? "OFFSET")

/-- Reads how an answer is arranged. -/
def arrangement : Parser Arrangement := do
  let order ← order
  let (limit, offset) ← bounds
  return { order, limit, offset }

/-- Reads what follows the source of a query, but for its arrangement. -/
def body (distinct : Bool) (items : List (Item ColumnName)) : Parser Body := do
  let condition ← clause? "WHERE"
  let grouping ←
    if ← word? "GROUP" then do
      words ["BY"]
      separated whole (← supply)
    else pure []
  let groupCondition ← clause? "HAVING"
  return { distinct, items, condition, grouping, groupCondition, arrangement := .none }

/-- Reads how the query behind is combined with the one before, if it is. -/
def combining? : Parser (Option Combining) := do
  if ← word? "UNION" then
    if ← word? "ALL" then return some .append else return some .union
  else if ← word? "EXCEPT" then return some .except
  else if ← word? "INTERSECT" then return some .intersect
  else return none

/-- Reads the values of one row. -/
def newRow : Parser (List (Expr ColumnName)) := do
  symbol "("
  let l ← arguments (← supply)
  symbol ")"
  return l

/-- A query with an arrangement. Rows of values take none. -/
def arranged (a : Arrangement) : Query → Parser Query
  | .ofNothing b => return .ofNothing { b with arrangement := a }
  | .ofTable b table second => return .ofTable { b with arrangement := a } table second
  | .ofQuery b inner second => return .ofQuery { b with arrangement := a } inner second
  | .combined how left right _ => return .combined how left right a
  | .ofRows rows =>
      if a.order.isEmpty && a.limit.isNone then return .ofRows rows else failure

mutual

/-- Reads a query with at most `fuel` queries inside. -/
def query : Nat → Parser Query
  | 0 => failure
  | fuel + 1 => do
      let first ← simpleQuery fuel
      let q ← combinations fuel first
      arranged (← arrangement) q

/-- Reads a query that combines no queries, without its arrangement. -/
def simpleQuery : Nat → Parser Query
  | 0 => failure
  | fuel + 1 => do
      if ← word? "VALUES" then return .ofRows (← separated newRow (← supply))
      words ["SELECT"]
      let distinct ← word? "DISTINCT"
      if !distinct then do let _ ← word? "ALL"
      let items ← separated item (← supply)
      if ← word? "FROM" then
        if ← symbol? "(" then do
          let inner ← query fuel
          symbol ")"
          let second ← alias?
          return .ofQuery (← body distinct items) inner second
        else do
          let table ← name
          let second ← alias?
          return .ofTable (← body distinct items) table second
      else return .ofNothing (← body distinct items)

/-- Reads the queries that are combined with a query. -/
def combinations : Nat → Query → Parser Query
  | 0, _ => failure
  | fuel + 1, left => do
      match ← combining? with
      | some how =>
          let right ← simpleQuery fuel
          combinations fuel (.combined how left right .none)
      | none => return left

end

/-! ### Commands -/

/-- Takes the sizes in brackets behind a declared type, when they are there. -/
def typeSizes : Parser Unit := do
  if ← symbol? "(" then do
    let _ ← arguments (← supply)
    symbol ")"

/-- Reads the constraints of a column, at most `fuel` of them. -/
def constraints : Nat → ColumnDef → Parser ColumnDef
  | 0, c => return c
  | fuel + 1, c => do
      if ← word? "PRIMARY" then do
        words ["KEY"]
        if !(← word? "ASC") then do let _ ← word? "DESC"
        constraints fuel { c with primaryKey := true }
      else if ← word? "NOT" then do
        words ["NULL"]
        constraints fuel { c with notNull := true }
      else if ← word? "UNIQUE" then constraints fuel { c with unique := true }
      else if ← word? "COLLATE" then
        match Collation.ofName? (← name) with
        | some collation => constraints fuel { c with collation }
        | none => failure
      else return c

/-- Reads a column of a new table. -/
def columnDef : Parser ColumnDef := do
  let column ← name
  let declared ← declaredType (← supply)
  typeSizes
  constraints (← supply) { name := column, declared }

/-- Reads a command that creates a table. -/
def createTable : Parser Command := do
  words ["TABLE"]
  let unlessPresent ← word? "IF"
  if unlessPresent then words ["NOT", "EXISTS"]
  let table ← name
  symbol "("
  let columns ← separated columnDef (← supply)
  symbol ")"
  return .createTable table columns unlessPresent

/-- Reads a command that drops a table. -/
def dropTable : Parser Command := do
  words ["TABLE"]
  let ifPresent ← word? "IF"
  if ifPresent then words ["EXISTS"]
  return .dropTable (← name) ifPresent

/-- Reads a command that inserts rows. -/
def insert : Parser Command := do
  words ["INTO"]
  let table ← name
  let columns ← if ← symbol? "(" then do
      let l ← separated name (← supply)
      symbol ")"
      pure (some l)
    else pure none
  words ["VALUES"]
  return .insert table columns (← separated newRow (← supply))

/-- Reads the new value of one column. -/
def change : Parser (List Char × Expr ColumnName) := do
  let column ← name
  symbol "="
  return (column, ← whole)

/-- Reads a command that changes rows. -/
def update : Parser Command := do
  let table ← name
  words ["SET"]
  let changes ← separated change (← supply)
  return .update table changes (← clause? "WHERE")

/-- Reads a command that deletes rows. -/
def delete : Parser Command := do
  words ["FROM"]
  let table ← name
  return .delete table (← clause? "WHERE")

/-- Reads a command. -/
def command : Parser Command := do
  if ← word? "CREATE" then createTable
  else if ← word? "DROP" then dropTable
  else if ← word? "INSERT" then insert
  else if ← word? "UPDATE" then update
  else if ← word? "DELETE" then delete
  else return .query (← query (← supply))

end Parser

/-- Reads the first command of a state, up to the semicolon behind it or the last token. -/
def Command.read? (s : ParserState) : Option (Command × ParserState) :=
  match Parser.command s with
  | none => none
  | some (c, rest) =>
      match rest.tokens with
      | [] => some (c, rest)
      | t :: r => if t.kind == .symbol [';'] then some (c, { rest with tokens := r }) else none

end RealmDirectory.Sql
