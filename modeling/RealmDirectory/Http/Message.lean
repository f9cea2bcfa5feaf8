import RealmDirectory.Http.Respond
import RealmDirectory.Json.Text

/-!
# Messages

Requests and responses as they are sent: a first line, header fields with one on a line,
an empty line, and a body whose size a header field tells.

## Main definitions

* `Head`, `Head.ofLines?`: what stands in front of the body of a request.
* `Head.request`: the request of a head and a body.
* `Response.message`: a response as it is sent.
-/

namespace RealmDirectory

/-- What stands in front of the body of a request. -/
structure Head where
  method : Method
  target : Target
  /-- The header fields with their names in lower case. -/
  headers : KeyedList String String

namespace Head

/-- The name and the value of a header field. -/
def header? (line : String) : Option (String × String) :=
  (Text.cut ':' line.toList).map fun p =>
    (String.ofList (p.1.map Char.toLower), String.ofList (Text.strip p.2))

/-- The head of a request in lines without their ends. -/
def ofLines? : List String → Option Head
  | [] => none
  | first :: lines =>
      match Text.fields ' ' first with
      | method :: target :: _ => do
          let target ← Target.ofText? target
          some ⟨Method.ofWord method, target, KeyedList.ofList (lines.filterMap header?)⟩
      | _ => none

/-- The number of bytes of the body. -/
def bodySize (h : Head) : Nat :=
  ((h.headers.get? "content-length").bind fun s =>
    Text.readBounded Text.maxWord32 s.toList).getD 0

/-- The request with a body. -/
def request (h : Head) (body : List UInt8) : Request where
  method := h.method
  target := h.target
  contentType := h.headers.get? "content-type"
  body := String.ofList (Text.ofUtf8Lossy body)

end Head

namespace Response

/-- The words for a status. -/
def reason : Nat → String
  | 200 => "OK"
  | 400 => "Bad Request"
  | 404 => "Not Found"
  | 405 => "Method Not Allowed"
  | 415 => "Unsupported Media Type"
  | 422 => "Unprocessable Content"
  | 500 => "Internal Server Error"
  | 501 => "Not Implemented"
  | 503 => "Service Unavailable"
  | _ => "Unknown"

/-- The text of a body, with its media type. -/
def bodyText (status : Nat) : Body → Option (String × String)
  | .empty => none
  | .sentence => some ("text/plain", reason status)
  | .json v => some ("application/json", String.ofList v.written)

/-- The response as it is sent. -/
def message (r : Response) : String :=
  let first := "HTTP/1.1 " ++ Dialect.number r.status ++ " " ++ reason r.status ++ "\r\n"
  match bodyText r.status r.body with
  | none => first ++ "content-length: 0\r\n\r\n"
  | some (type, text) =>
      first ++ "content-type: " ++ type ++ "\r\ncontent-length: " ++
        Dialect.number (Text.utf8Bytes text.toList).length ++ "\r\n\r\n" ++ text

end Response

end RealmDirectory
