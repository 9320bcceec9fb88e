import TweeLint.Http.BodyLimit
import TweeLint.Http.BodyText
import TweeLint.Http.Query
import TweeLint.Service
import TweeLint.Settings
import TweeLint.Version
import TweeLint.Vocabulary.Load

/-!
# The lint service over HTTP

Four endpoints: the state of the service, the vocabulary, the look-up of a name, and the linting of
a document. A request is first held to the size limit, then routed by its path and method, and every
response tells how long it took. A request whose address cannot be read gets no further than the
limit, and its answer does not tell.
-/

namespace TweeLint.Http

/-! ### What a request to lint holds -/

/-- A document to lint, with the label for its report. -/
structure LintRequest where
  content : String
  source : String
deriving DecidableEq

/-- Why a body is not taken as a request. -/
inductive BodyError where
  /-- The bytes hold no text, or a text that cannot be taken in. -/
  | unreadable
  /-- The text does not say what it must. -/
  | invalid (issues : List Issue)
deriving DecidableEq

namespace LintRequest

/-- What bounds the bodies that are taken in. A reader that calls itself for each level takes as many
levels as calls are left to it: the run-time system of the service allows 1000, and the layers of a
server around the reader were found to need about 40. The digits are those of any numeral. -/
def limits : Json.ReadLimits := ⟨960, Numeral.maxDigits⟩

/-- The request that a JSON value holds. -/
def ofJson (j : Json) : Checked LintRequest :=
  match j with
  | .object _ =>
    LintRequest.mk <$> Record.required "content" Record.text j <*>
      Record.optional "source" defaultSource Record.text j
  | _ => .fail .notObject

/-- Whether a content type is one of JSON. Parameters and letter case do not count. -/
def isJsonType (contentType : String) : Bool :=
  let media := Text.lower (Text.trim (contentType.toList.takeWhile (· != ';')))
  let subtype := media.drop "application/".length
  "application/".toList.isPrefixOf media && !subtype.contains '/' &&
    (subtype == "json".toList || "+json".toList.isSuffixOf subtype)

/-- The JSON value of a body. -/
def jsonOf (bytes : List UInt8) : Except BodyError Json :=
  match BodyText.ofBytes bytes with
  | none => .error .unreadable
  | some text =>
    match Json.read limits text with
    | .ok j => .ok j
    | .error (.malformed i) => .error (.invalid [⟨[.field "body", .index i], .notJson⟩])
    | .error _ => .error .unreadable

/-- The request that a body holds. -/
def ofBody (contentType : Option String) (bytes : List UInt8) : Except BodyError LintRequest :=
  if bytes.isEmpty then .error (.invalid [⟨[.field "body"], .missing⟩])
  else if (contentType.map isJsonType).getD false then do
    ((ofJson (← jsonOf bytes)).under (.field "body")).toExcept.mapError .invalid
  else .error (.invalid [⟨[.field "body"], .notObject⟩])

end LintRequest

/-! ### Answers -/

/-- The answer to a request that does not say what it must. -/
def unprocessable (issues : List Issue) : Response :=
  .detail 422 (.array (issues.map Issue.toJson))

/-- The answer of a service that is up. -/
def health : Response :=
  .json 200 (.object [("status", .string "ok"), ("version", .string version)])

/-- The report of the document that is sent. -/
def lint (s : Service) (r : Request) : Response :=
  match LintRequest.ofBody (r.header? "content-type") r.bytes with
  | .ok q => .json 200 (s.lintText q.source q.content).toJson
  | .error .unreadable => .detail 400 (.string "There was an error parsing the body")
  | .error (.invalid issues) => unprocessable issues

/-- The vocabulary. -/
def vocabulary (s : Service) : Response :=
  .json 200 (.object [("count", .int s.vocabulary.size),
    ("macros", .array (s.vocabulary.names.map .string))])

/-- What is known about the name in the query. -/
def suggest (s : Service) (r : Request) : Response :=
  match Query.get? r.query "name" with
  | none => unprocessable [⟨[.field "query", .field "name"], .missing⟩]
  | some name =>
    if name.isEmpty then unprocessable [⟨[.field "query", .field "name"], .tooShort 1⟩]
    else
      let found := s.lookup name
      .json 200 (.object [("name", .string found.name), ("valid", .bool found.valid),
        ("suggestion", .ofOption found.suggestion)])

/-! ### Routing -/

/-- The endpoints. -/
inductive Endpoint where
  | health
  | lint
  | vocabulary
  | suggest
deriving DecidableEq

namespace Endpoint

/-- All endpoints. -/
def all : List Endpoint := [health, lint, vocabulary, suggest]

/-- The path of an endpoint. -/
def path : Endpoint → String
  | health => "/health"
  | lint => "/lint"
  | vocabulary => "/vocabulary"
  | suggest => "/vocabulary/suggest"

/-- The method of an endpoint. -/
def method : Endpoint → String
  | lint => "POST"
  | _ => "GET"

/-- The endpoint at a path. -/
def atPath? (path : String) : Option Endpoint :=
  all.find? fun e => e.path = path

/-- The answer of an endpoint. -/
def answer (s : Service) (r : Request) : Endpoint → Response
  | health => Http.health
  | lint => Http.lint s r
  | vocabulary => Http.vocabulary s
  | suggest => Http.suggest s r

end Endpoint

/-- A path without the slashes at its end. -/
def dropSlashes (path : String) : String :=
  String.ofList (path.toList.reverse.dropWhile (· == '/')).reverse

/-- The address of a path on the host of a request, with its query, as it is written in a header. -/
def location (r : Request) (path : String) : String :=
  let tail := if r.query.isEmpty then [] else '?'.toUInt8 :: r.query
  String.ofList (Percent.encode (Text.Utf8.encode (r.address path) ++ tail))

/-- The answer where no endpoint is: if there is one at the path without the slashes at its end, the
way to it. -/
def elsewhere (r : Request) : Response :=
  let path := dropSlashes r.path
  match Endpoint.atPath? path with
  | some _ => ⟨307, [("location", location r path)], .none⟩
  | none => .detail 404 (.string "Not Found")

/-- Routes a request by its path and method. -/
def route (s : Service) : Handler := fun r =>
  match Endpoint.atPath? r.path with
  | none => elsewhere r
  | some e =>
    if r.method = e.method then e.answer s r
    else
      { Response.detail 405 (.string "Method Not Allowed") with headers := [("allow", e.method)] }

/-! ### Timing -/

/-- The header that tells how long a request took. -/
def durationHeader : String := "x-request-duration-ms"

/-- A time in tenths of a millisecond, written in milliseconds. -/
def durationText (tenths : Nat) : String :=
  s!"{tenths / 10}.{tenths % 10}"

/-- Has every response, if there is one, tell how long it took. -/
def timed (tenths : Nat) (respond? : Request → Option Response) (r : Request) : Option Response :=
  (respond? r).map fun response =>
    { response with headers := response.headers ++ [(durationHeader, durationText tenths)] }

/-- Has every request answered, in the end. -/
def guarded (respond? : Request → Option Response) : Handler := fun r =>
  (respond? r).getD .serverError

/-- The answer to a request that takes a given time. -/
def respond (s : Service) (tenths : Nat) : Handler :=
  guarded (timed tenths (BodyLimit.limited (route s)))

/-! ### Starting -/

/-- Why the service does not start. -/
inductive StartError where
  | settings (error : SettingsError)
  | vocabulary (error : VocabularyError)
  | level (error : Settings.UnknownLevel)
deriving DecidableEq

/-- The service for given settings. The vocabulary is loaded as they say unless one is given. -/
def start (files : Files) (environment : Environment) (given : Option Vocabulary) :
    Except StartError Service := do
  let settings ← (Settings.load files environment).mapError .settings
  let vocabulary ←
    match given with
    | some v => pure v
    | none => (Vocabulary.load files settings.vocabularyPath).mapError .vocabulary
  return ⟨vocabulary, settings.maxDocumentSize, settings.lintWorkers⟩

/-- Where a server listens, and how much it logs. -/
structure Listener where
  host : String
  port : Int
  logLevel : String
deriving DecidableEq

/-- Where to listen. The log level must be known, and is passed on in lower case. -/
def listener (files : Files) (environment : Environment) : Except StartError Listener := do
  let settings ← (Settings.load files environment).mapError .settings
  let _ ← settings.checkedLevel.mapError .level
  return ⟨settings.serverHost, settings.serverPort,
    String.ofList (Text.lower settings.logLevel.toList)⟩

end TweeLint.Http
