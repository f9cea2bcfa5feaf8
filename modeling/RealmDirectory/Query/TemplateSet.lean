import RealmDirectory.Password.Engine
import RealmDirectory.Query.Dialect
import RealmDirectory.Query.Filter

/-!
# Statement sets

The administrator of a directory writes the statements that read it as templates. A
statement set holds them ready for use: the base statement lists every mapped column,
and the statements that are left blank are derived from it. The count statement counts
the rows of the base, and a lookup by an attribute compares that attribute's column.

## Main definitions

* `Templates`: the statements as they are configured.
* `TemplateSet`, `TemplateSet.ofTemplates`: the statements ready for use.
-/

namespace RealmDirectory

/-- The statements of a directory as they are configured. -/
structure Templates where
  base : String
  count : Option String := none
  findById : Option String := none
  findByUsername : Option String := none
  findByEmail : Option String := none
  findPasswordHash : String
  updatePassword : Option String := none
  deriving DecidableEq, Repr

/-- The statements of a directory ready for use, with what is needed to run them. -/
structure TemplateSet where
  /-- The statements as they are configured. -/
  templates : Templates
  /-- The attributes and their columns. -/
  columns : ColumnMapping
  /-- The engine for stored passwords. -/
  engine : HashEngine
  /-- The dialect of the database. -/
  dialect : Dialect
  /-- Whether users may be removed. -/
  allowDelete : Bool
  /-- Whether users may be overwritten. -/
  allowOverwrite : Bool
  /-- The statement of a search, its filter still open. -/
  baseQuery : String
  /-- The statement that counts all users. -/
  countQuery : String
  /-- The statement that finds a user by identifier. -/
  findById : String
  /-- The statement that finds a user by name. -/
  findByUsername : String
  /-- The statement that finds a user by mail address. -/
  findByEmail : String

namespace TemplateSet

/-- A template that holds more than blanks. -/
def given? (template : Option String) : Option String :=
  template.filter fun t => !Text.isBlankText t

/-- The statement that counts all users. -/
def countFor (t : Templates) (m : ColumnMapping) : String :=
  let rendered :=
    match given? t.count with
    | some count => Template.withColumns count m []
    | none => Template.withColumns t.base m ["count(*)"]
  (CompiledQuery.compile rendered m .empty).query

/-- The search for one attribute's exact value. -/
def lookupCriteria (name : String) : Criteria :=
  (Criteria.withExact .empty true).withAttribute name ""

/-- The statement that finds a user by an attribute: the template that is given for it,
or else a search of the base statement. -/
def findFor (template : Option String) (baseQuery : String) (m : ColumnMapping)
    (name : String) : String :=
  match given? template with
  | some find => Template.withColumns find m []
  | none => (CompiledQuery.compile baseQuery m (lookupCriteria name)).query

/-- The statements of a directory. -/
def ofTemplates (t : Templates) (m : ColumnMapping) (engine : HashEngine)
    (dialect : Dialect) (allowDelete allowOverwrite : Bool) : TemplateSet :=
  let baseQuery := Template.withColumns t.base m []
  { templates := t
    columns := m
    engine
    dialect
    allowDelete
    allowOverwrite
    baseQuery
    countQuery := countFor t m
    findById := findFor t.findById baseQuery m "id"
    findByUsername := findFor t.findByUsername baseQuery m "username"
    findByEmail := findFor t.findByEmail baseQuery m "email" }

/-- The base statement with a select list of its own. -/
def baseQueryWith (s : TemplateSet) (listed : List String) : String :=
  Template.withColumns s.templates.base s.columns listed

/-- The statement that reads a stored password. -/
def findPasswordHash (s : TemplateSet) : String := s.templates.findPasswordHash

/-- The statement that replaces a stored password, when there is one. -/
def updatePassword (s : TemplateSet) : Option String := given? s.templates.updatePassword

end TemplateSet

end RealmDirectory
