import RealmDirectory.Directory.Service
import RealmDirectory.Http.Credentials
import RealmDirectory.Http.MediaType
import RealmDirectory.Http.Route
import RealmDirectory.Http.Target
import RealmDirectory.Json.Value
import RealmDirectory.Url.Fields

/-!
# Responses

A service answers requests about the users of its realms in JSON. A request is understood
from the outside in: its path, its method, the encodings in its path, its body, and its
fields, before the realm is asked. What a realm fails with decides the status, and its
detail is told.

## Main definitions

* `Request`, `Response`: what comes in and what goes out.
* `Search.ofFields`: a search with its page, from the fields of a query.
* `Service.respond`: the response to a request.
-/

namespace RealmDirectory

/-! ### Requests and responses -/

/-- The methods that some resource knows. -/
inductive Method where
  | get
  | head
  | post
  | put
  | delete
  | other
  deriving DecidableEq, Repr

/-- The method of a word, which is written in capitals. -/
def Method.ofWord : String → Method
  | "GET" => get
  | "HEAD" => head
  | "POST" => post
  | "PUT" => put
  | "DELETE" => delete
  | _ => other

/-- A request. -/
structure Request where
  method : Method
  target : Target
  /-- The media type of the body. -/
  contentType : Option String := none
  body : String := ""
  deriving DecidableEq, Repr

/-- The body of a response. -/
inductive Body where
  | empty
  /-- A sentence for people. -/
  | sentence
  | json (value : JsonValue)

/-- A response. -/
structure Response where
  status : Nat
  body : Body

namespace Response

/-- The response without a body. -/
def bare (status : Nat) : Response := ⟨status, .empty⟩

/-- The response that tells in a sentence why a request is not understood. -/
def refused (status : Nat) : Response := ⟨status, .sentence⟩

/-- The response with a value. -/
def ok (value : JsonValue) : Response := ⟨200, .json value⟩

/-- The response with one named value. -/
def okMember (name : String) (value : JsonValue) : Response :=
  ok (.object [(name, value)])

/-- The response that tells what went wrong. -/
def problem (status : Nat) (detail : String) : Response :=
  ⟨status, .json (.object [("error", .text detail)])⟩

/-- The response to a failure. -/
def ofFailure (f : Failure) : Response := problem f.status f.detail

/-- The response without its body. -/
def withoutBody (r : Response) : Response := { r with body := .empty }

end Response

/-! ### Searches -/

/-- A search and the page that is asked for. -/
structure Search where
  criteria : Criteria
  page : Option Page

namespace Search

/-- The key of the page's index. -/
def indexKey : String := "page"

/-- The key of the page's size. -/
def sizeKey : String := "size"

/-- The size of a page when none is given. -/
def defaultSize : UInt64 := 20

/-- The number under a key, if the key is there. -/
def number (fields : KeyedList String String) (key : String) :
    Except Failure (Option UInt64) :=
  match fields.get? key with
  | none => .ok none
  | some value =>
      match Text.readBounded Text.maxWord64 (Text.strip value.toList) with
      | some n => .ok (some n.toUInt64)
      | none =>
          .error (.badRequest ("Invalid " ++ key ++ " parameter: " ++ value))

/-- The page of an index and a size, when one of them is given. -/
def page? : Option UInt64 → Option UInt64 → Option Page
  | none, none => none
  | index, size => some ⟨index.getD 0, size.getD defaultSize⟩

/-- The search of the fields of a query: two keys ask for a page, and all others are
criteria. -/
def ofFields (fields : KeyedList String String) : Except Failure Search := do
  let index ← number fields indexKey
  let size ← number fields sizeKey
  return ⟨(fields.erase indexKey).erase sizeKey, page? index size⟩

end Search

namespace Service

/-! ### Resources -/

/-- The record of a user as JSON. -/
def recordJson (u : UserRecord) : JsonValue :=
  .object (u.entries.map fun e => (e.1, .text e.2))

/-- The response of an operation that fails or answers. -/
def settle (operation : Session Service Response) : StateM Service Response := do
  match ← operation.run with
  | .ok response => return response
  | .error f => return .ofFailure f

/-- An operation that does not fail. -/
def surely {α : Type} (operation : StateM Service α) : Session Service α :=
  ExceptT.lift operation

/-- The users that a search selects. -/
def listUsers (realm : String) (fields : KeyedList String String) :
    Session Service Response := do
  let search ← Session.ofExcept (Search.ofFields fields)
  let r ← repository realm
  let users ←
    if search.criteria.isEmpty && search.page.isNone then surely r.getUsers
    else surely (r.findMatching search.criteria search.page)
  return .ok (.array (users.map recordJson))

/-- The number of users that a search selects, whatever the page. -/
def countUsers (realm : String) (fields : KeyedList String String) :
    Session Service Response := do
  let search ← Session.ofExcept (Search.ofFields fields)
  let r ← repository realm
  let count ← surely (r.getCount search.criteria)
  return .okMember "count" (.whole count.toInt)

/-- The user that a lookup finds by what was asked for. -/
def findUser (realm wanted : String)
    (find : Repository Service → String → StateM Service (Option UserRecord)) :
    Session Service Response := do
  let r ← repository realm
  match ← surely (find r wanted) with
  | some u => return .ok (recordJson u)
  | none => throw (.notFound ("User not found: " ++ wanted))

/-- Whether users of a realm may be removed; nobody is. -/
def removeUser (realm : String) : Session Service Response := do
  let r ← repository realm
  return .okMember "removed" (.bool r.allowsRemoval)

/-- Whether a password is right. -/
def validate (realm : String) (c : Credentials) : Session Service Response := do
  let r ← repository realm
  let valid ← r.validateCredentials c.username c.password
  return .okMember "valid" (.bool valid)

/-- Stores a new password under a salt. An empty one is refused. -/
def update (salt : Salt) (realm : String) (c : Credentials) : Session Service Response := do
  if c.password.isEmpty then return .problem 400 "Password cannot be empty"
  let r ← repository realm
  let updated ← r.updateCredentials salt c.username c.password
  return .okMember "updated" (.bool updated)

/-- What a request with credentials is answered once they are read. -/
def withCredentials (request : Request)
    (operation : Credentials → Session Service Response) : StateM Service Response :=
  if !((request.contentType.map MediaType.isJson).getD false) then return .refused 415
  else
    match Credentials.read request.body with
    | .error .malformed => return .refused 400
    | .error .misshapen => return .refused 422
    | .ok c => settle (operation c)

/-! ### Requests -/

/-- Whether a resource knows a method. Whatever is got can also be asked for without the
body. -/
def allows : Method → Resource → Bool
  | .get, .validation | .get, .credentials | .head, .validation | .head, .credentials => false
  | .get, _ | .head, _ => true
  | .delete, .user _ => true
  | .post, .validation => true
  | .put, .credentials => true
  | _, _ => false

/-- The response to a request for a resource of a realm. -/
def answer (salt : Salt) (request : Request) (realm : String) :
    Resource → StateM Service Response
  | .users => settle (listUsers realm fields)
  | .count => settle (countUsers realm fields)
  | .user id =>
      if request.method = .delete then settle (removeUser realm)
      else settle (findUser realm id Repository.findById)
  | .byUsername username => settle (findUser realm username Repository.findByUsername)
  | .byEmail email => settle (findUser realm email Repository.findByEmail)
  | .validation => withCredentials request (validate realm)
  | .credentials => withCredentials request (update salt realm)
where
  /-- The fields of the request's query; of fields with one key the last one counts. -/
  fields : KeyedList String String := KeyedList.ofList (UrlFields.ofQuery request.target.query)

/-- The resource of a pattern with the encodings as they are written. -/
def resourceOf : Route.Pattern → Resource
  | .whole _ resource => resource
  | .part _ resource value => resource (String.ofList value)

/-- The response to a request, body and all. -/
def respondFully (salt : Salt) (request : Request) : StateM Service Response :=
  match Route.pattern? request.target.path with
  | none => return .bare 404
  | some pattern =>
      if !allows request.method (resourceOf pattern) then return .bare 405
      else
        match Route.ofPattern? pattern with
        | none => return .refused 400
        | some route => answer salt request route.realm route.resource

/-- The response to a request. New passwords are stored under a salt. -/
def respond (salt : Salt) (request : Request) : StateM Service Response := do
  let response ← respondFully salt request
  return if request.method = .head then response.withoutBody else response

end Service

end RealmDirectory
