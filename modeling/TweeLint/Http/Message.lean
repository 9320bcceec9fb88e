import TweeLint.Http.Address
import TweeLint.Json

/-!
# Requests and responses

A request as a server hands it on: the path is decoded, the query is raw, and the body comes in
chunks. What the headers hold is what the client sent, the host too.

The address of a request is put together from all this (`Request.origin`, `Request.address`), and its
path is read off the address again (`Request.addressPath?`). That is the path of the request only
where neither the host nor the path has a character in it that means something else in an address.
-/

namespace TweeLint.Http

/-- The schemes under which requests come. -/
inductive Scheme where
  | http
  | https
deriving DecidableEq

namespace Scheme

/-- A scheme as it is written. -/
def name : Scheme → String
  | http => "http"
  | https => "https"

/-- The port that need not be written. -/
def port : Scheme → Nat
  | http => 80
  | https => 443

end Scheme

/-- A request. `server` is the name and the port under which the server was reached. -/
structure Request where
  method : String
  scheme : Scheme
  server : Option (String × Nat)
  path : String
  query : List UInt8
  headers : List (String × String)
  body : List (List UInt8)

/-- What a response holds. -/
inductive Content where
  | none
  | json (j : Json)
  | text (s : String)

/-- A response. -/
structure Response where
  status : Nat
  headers : List (String × String)
  body : Content

/-- What answers requests. -/
abbrev Handler := Request → Response

/-- The value of a header. Letter case does not count in its name. -/
def header? (name : String) (headers : List (String × String)) : Option String :=
  (headers.find? fun h => h.1.toList.map Char.toLower == name.toList).map (·.2)

namespace Request

/-- The value of a header. -/
def header? (r : Request) (name : String) : Option String :=
  Http.header? name r.headers

/-- The host that a request names, or else the server that was reached. -/
def authority? (r : Request) : Option String :=
  match r.header? "host" with
  | some host => some host
  | none => r.server.map fun (name, port) =>
    if port = r.scheme.port then name else s!"{name}:{port}"

/-- The address in front of the path. -/
def origin (r : Request) : String :=
  match r.authority? with
  | some authority => s!"{r.scheme.name}://{authority}"
  | none => ""

/-- The address of a path on the host of a request. -/
def address (r : Request) (path : String) : List Char :=
  (r.origin ++ path).toList

/-- The path as it is seen in the address of a request. There is none if the query is not UTF-8 or
the address is not well formed. -/
def addressPath? (r : Request) : Option (List Char) :=
  match Text.Utf8.decode r.query with
  | .error _ => none
  | .ok query => Address.path? (r.address r.path ++ if query.isEmpty then [] else '?' :: query)

/-- The bytes of the body. -/
def bytes (r : Request) : List UInt8 := r.body.flatten

end Request

namespace Response

/-- The value of a header. -/
def header? (r : Response) (name : String) : Option String :=
  Http.header? name r.headers

/-- A response with a JSON body and no headers. -/
def json (status : Nat) (body : Json) : Response := ⟨status, [], .json body⟩

/-- A response that says what is wrong. -/
def detail (status : Nat) (what : Json) : Response :=
  json status (.object [("detail", what)])

/-- The response where no other could be made. -/
def serverError : Response := ⟨500, [], .text "Internal Server Error"⟩

end Response

end TweeLint.Http
