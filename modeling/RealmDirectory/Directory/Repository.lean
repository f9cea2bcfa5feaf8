import RealmDirectory.Directory.Connection
import RealmDirectory.Number.Binary64
import RealmDirectory.Query.Page
import RealmDirectory.Query.TemplateSet

/-!
# User repositories

A repository answers questions about the users of one directory with its statements and
a source of connections. Each operation takes a connection of its own and sends at most
one statement.

Reading comes in two forms. The functions whose names begin with `load` report what went
wrong; those that begin with `find` or `get` answer as if the directory were empty.
Checking a password treats a lookup that went wrong as a user without a password, so that
an outage never lets anybody in; storing a password reports everything.

## Main definitions

* `Repository.loadUsers`, `Repository.loadCount`, `Repository.loadById`, …: reading.
* `Repository.validateCredentials`: whether a password is the stored one.
* `Repository.updateCredentials`: stores a new password.
-/

namespace RealmDirectory

/-- The statements of a directory and the source of connections to its database. -/
structure Repository (σ : Type) where
  source : ConnectionSource σ
  queries : TemplateSet

namespace Repository

variable {σ : Type}

/-! ### Reading -/

/-- The rows of a page of a statement. -/
def loadRows (r : Repository σ) (statement : String) (values : List String)
    (page : Option Page) : Session σ (List Row) := do
  r.source.acquire
  r.source.fetch (Page.paginate r.queries.dialect page statement) values

/-- The records of a page of a statement. -/
def loadRecords (r : Repository σ) (statement : String) (values : List String)
    (page : Option Page) : Session σ (List UserRecord) := do
  let rows ← r.loadRows statement values page
  return rows.map Row.record

/-- The first record of a statement with one value. -/
def loadFirst (r : Repository σ) (statement value : String) :
    Session σ (Option UserRecord) := do
  let records ← r.loadRecords statement [value] none
  return records.head?

/-- The statement of a search, with its values. -/
def search (r : Repository σ) (c : Criteria) : CompiledQuery :=
  CompiledQuery.compile r.queries.baseQuery r.queries.columns c

/-- Every user. -/
def loadUsers (r : Repository σ) : Session σ (List UserRecord) :=
  let q := r.search .empty
  r.loadRecords q.query q.values none

/-- The users of a page of a search. -/
def loadMatching (r : Repository σ) (c : Criteria) (page : Option Page) :
    Session σ (List UserRecord) :=
  let q := r.search c
  r.loadRecords q.query q.values page

/-- The user with an identifier. -/
def loadById (r : Repository σ) (id : String) : Session σ (Option UserRecord) :=
  r.loadFirst r.queries.findById id

/-- The user with a name. -/
def loadByUsername (r : Repository σ) (username : String) :
    Session σ (Option UserRecord) :=
  r.loadFirst r.queries.findByUsername username

/-- The user with a mail address. -/
def loadByEmail (r : Repository σ) (email : String) : Session σ (Option UserRecord) :=
  r.loadFirst r.queries.findByEmail email

/-! ### Counting -/

/-- The statement that counts the users of a search, with its values. -/
def countStatement (r : Repository σ) (c : Criteria) : CompiledQuery :=
  if c.isEmpty then ⟨r.queries.countQuery, none⟩
  else
    let q := r.search c
    { q with query := "select count(*) from (" ++ q.query ++ ") count_result" }

/-- The number that a count statement selects: the first column of its first row, where
nothing and NULL are zero. Databases report counts in many number formats, and whatever
follows the point is cut. -/
def countOf (rows : List Row) : Except Failure Int64 :=
  let text := (rows.head?.bind Row.first).getD "0"
  match Binary64.read? (Text.strip text.toList) with
  | some n => .ok n.truncate
  | none => .error (.database ("Count query returned '" ++ text ++ "'"))

/-- The number of users of a search. -/
def loadCount (r : Repository σ) (c : Criteria) : Session σ Int64 := do
  let q := r.countStatement c
  let rows ← r.loadRows q.query q.values none
  Session.ofExcept (countOf rows)

/-! ### Reading without failures -/

/-- The answer of an operation, or a substitute when it fails. -/
def orElse {α : Type} (substitute : α) (operation : Session σ α) : StateM σ α := do
  match ← operation.run with
  | .ok a => return a
  | .error _ => return substitute

/-- Every user, or none when the directory cannot be read. -/
def getUsers (r : Repository σ) : StateM σ (List UserRecord) := orElse [] r.loadUsers

/-- The number of users of a search, or 0 when the directory cannot be read. -/
def getCount (r : Repository σ) (c : Criteria) : StateM σ Int64 :=
  orElse 0 (r.loadCount c)

/-- The users of a page of a search, or none when the directory cannot be read. -/
def findMatching (r : Repository σ) (c : Criteria) (page : Option Page) :
    StateM σ (List UserRecord) :=
  orElse [] (r.loadMatching c page)

/-- The user with an identifier, or nobody when the directory cannot be read. -/
def findById (r : Repository σ) (id : String) : StateM σ (Option UserRecord) :=
  orElse none (r.loadById id)

/-- The user with a name, or nobody when the directory cannot be read. -/
def findByUsername (r : Repository σ) (username : String) :
    StateM σ (Option UserRecord) :=
  orElse none (r.loadByUsername username)

/-- The user with a mail address, or nobody when the directory cannot be read. -/
def findByEmail (r : Repository σ) (email : String) : StateM σ (Option UserRecord) :=
  orElse none (r.loadByEmail email)

/-! ### Passwords -/

/-- The rows with the stored password of a user. -/
def loadPasswordHash (r : Repository σ) (username : String) : Session σ (List Row) := do
  r.source.acquire
  r.source.fetch r.queries.findPasswordHash [username]

/-- The stored password of a user, when there is one: the first column of the first row,
unless it is NULL or empty. -/
def findPasswordHash (r : Repository σ) (username : String) :
    StateM σ (Option String) := do
  let rows ← orElse [] (r.loadPasswordHash username)
  return (rows.head?.bind Row.first).filter fun h => !h.isEmpty

/-- Whether a password is the stored one of a user. A user without a stored password has
none that is right; a stored text that the engine cannot read is a failure. -/
def validateCredentials (r : Repository σ) (username password : String) :
    Session σ Bool := fun s =>
  let (stored, s) := r.findPasswordHash username s
  match stored with
  | none => (.ok false, s)
  | some h => Session.ofExcept (r.queries.engine.verify h password) s

/-- Stores a new password of a user under a salt. The answer tells whether the statement
changed a row. -/
def updateCredentials (r : Repository σ) (salt : Salt) (username password : String) :
    Session σ Bool := do
  match r.queries.updatePassword with
  | none => throw (.notSupported "Password updates are not configured")
  | some statement =>
      let h ← Session.ofExcept (r.queries.engine.hash salt password)
      r.source.acquire
      let changed ← r.source.execute statement [h, username]
      return 0 < changed

/-! ### Permissions -/

/-- Whether users of the directory may be removed. Removing changes no database. -/
def allowsRemoval (r : Repository σ) : Bool := r.queries.allowDelete

/-- Whether users of the directory may be overwritten. -/
def allowsOverwrite (r : Repository σ) : Bool := r.queries.allowOverwrite

end Repository

end RealmDirectory
