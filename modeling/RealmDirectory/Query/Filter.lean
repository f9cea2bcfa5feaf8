import RealmDirectory.Query.Criteria
import RealmDirectory.Query.Template
import RealmDirectory.Text.Letter

/-!
# Search filters

A search is compiled in two steps. `Selection.of` decides what the search means for the
columns of a directory: everyone, nobody, or the users whose columns match certain
values. The selection is then written as a filter with one `?` for every value, so that
no value ever becomes part of the statement.

Columns are compared in upper case. A comparison is exact, or it looks for the value
anywhere in the column with a `LIKE` pattern in which the value's own wildcards are
escaped.

## Main definitions

* `likePattern`: the pattern that finds a value anywhere in a text.
* `Selection`, `Selection.of`: what a search selects.
* `Selection.condition`, `Selection.parameters`: the filter's text and its values.
* `CompiledQuery.compile`: the statement of a search, with its parameters.
-/

namespace RealmDirectory

/-! ### Patterns -/

/-- The character that makes the next one of a pattern literal. -/
def likeEscape : Char := '!'

/-- Whether a character has a meaning of its own in some dialect's patterns. -/
def isLikeMeta (c : Char) : Bool := c == '!' || c == '%' || c == '_' || c == '['

/-- Escapes every character that has a meaning in patterns. -/
def escapeLike : List Char → List Char
  | [] => []
  | c :: r => if isLikeMeta c then likeEscape :: c :: escapeLike r else c :: escapeLike r

/-- The pattern that finds the upper-cased value anywhere in a text. -/
def likePattern (value : String) : String :=
  String.ofList ('%' :: (escapeLike (Text.upperCase value.toList) ++ ['%']))

/-! ### Selections -/

/-- How the comparisons of a filter combine. -/
inductive Combination where
  /-- Every comparison has to hold. -/
  | all
  /-- One comparison is enough. -/
  | any
  deriving DecidableEq, Repr

/-- The word between two comparisons. -/
def Combination.word : Combination → String
  | all => "AND"
  | any => "OR"

/-- What a search selects. -/
inductive Selection where
  /-- Every user. -/
  | everyone
  /-- No user. -/
  | nobody
  /-- The users whose columns match the values bound to them. -/
  | matching (combination : Combination) (bound : List (String × String))
  deriving DecidableEq, Repr

/-- Binds a value to a column: columns are kept in ascending order, and the value bound
last to a column replaces one bound before. -/
def bindColumn (column value : String) : List (String × String) → List (String × String)
  | [] => [(column, value)]
  | (c, v) :: r =>
      if column < c then (column, value) :: (c, v) :: r
      else if column = c then (column, value) :: r
      else (c, v) :: bindColumn column value r

/-- Binds the values of a list of columns. -/
def bindColumns (l : List (String × String)) : List (String × String) :=
  l.foldl (fun bound e => bindColumn e.1 e.2 bound) []

namespace Selection

/-- The selection for the values bound to columns. -/
def ofBound (combination : Combination) : List (String × String) → Selection
  | [] => nobody
  | bound => matching combination bound

/-- The values of the searched attributes, at the columns that hold them. -/
def attributeBindings (m : ColumnMapping) (c : Criteria) : List (String × String) :=
  c.attributes.filterMap fun e => (m.column e.1).map fun column => (column, e.2)

/-- The keyword, at every column in which keywords are looked for. -/
def keywordBindings (m : ColumnMapping) (keyword : String) : List (String × String) :=
  m.entries.filterMap fun e =>
    if Criteria.searchable.contains e.1 then some (e.2, keyword) else none

/-- What a search selects by the columns of a directory. Attributes win over a keyword;
without either, and without any column, the search asks for everyone. -/
def of (m : ColumnMapping) (c : Criteria) : Selection :=
  if c.isEmpty || m.isEmpty then everyone
  else if c.attributes.isEmpty then
    match c.keyword? with
    | none => everyone
    | some keyword =>
        if Criteria.isWildcard keyword then everyone
        else ofBound .any (bindColumns (keywordBindings m keyword))
  else ofBound .all (bindColumns (attributeBindings m c))

/-- One comparison of a column with the value of a mark. -/
def comparison (exact : Bool) (column : String) : String :=
  if exact then " UPPER(" ++ column ++ ") = ?  "
  else " UPPER(" ++ column ++ ") LIKE ? ESCAPE '!' "

/-- The filter that selects in a statement. -/
def condition (exact : Bool) : Selection → String
  | everyone => "1=1"
  | nobody => "1=0"
  | matching combination bound =>
      Text.join combination.word (bound.map fun e => comparison exact e.1)

/-- The values for the filter's marks, or nothing when it has no marks. -/
def parameters (exact : Bool) : Selection → Option (List String)
  | matching _ bound =>
      some (bound.map fun e => if exact then e.2 else likePattern e.2)
  | _ => none

end Selection

/-! ### Compiled searches -/

/-- A statement with `?` marks and the values to bind to them, in the order of the
marks. -/
structure CompiledQuery where
  /-- The statement. -/
  query : String
  /-- The values, or nothing when the statement has no marks to bind. -/
  params : Option (List String)
  deriving DecidableEq, Repr

namespace CompiledQuery

/-- The values to bind. -/
def values (q : CompiledQuery) : List String := q.params.getD []

/-- The statement of a search: its filter takes the place of the template's filter
placeholder. A template without one selects everyone. -/
def compile (template : String) (m : ColumnMapping) (c : Criteria) : CompiledQuery :=
  let selection :=
    if Template.mentions template Template.filters then Selection.of m c else .everyone
  { query := Template.fill template Template.filters (selection.condition c.isExact)
    params := selection.parameters c.isExact }

end CompiledQuery

end RealmDirectory
