import TweeLint.Http.Message
import TweeLint.Numeral

/-!
# The size of a body

Bodies are refused above a limit, which is higher where documents are sent. Where that is, is settled
by the path in the address of the request (`Request.addressPath?`), not by the path that it is routed
by. The announced length is looked at first, for every method; then, for the methods that have a
body, the bytes are counted as they come, so an announcement that is missing or too low does not
help. What passes is handed on in one piece.
-/

namespace TweeLint.Http.BodyLimit

/-- The bytes of a mebibyte. -/
def mebibyte : Nat := 1024 * 1024

/-- The end of the paths to which documents are sent. -/
def lintPath : String := "/lint"

/-- The mebibytes that a body may have that is sent to a path. -/
def mebibytesAt (path : List Char) : Nat :=
  if lintPath.toList.isSuffixOf path then 5 else 1

/-- The bytes that a body may have that is sent to a path. -/
def limitAt (path : List Char) : Nat := mebibytesAt path * mebibyte

/-- The length that a request announces, if it announces an integer. -/
def announced? (r : Request) : Option Int :=
  (r.header? "content-length").bind Numeral.ofLiteral?

/-- Whether the announced length is above a limit. -/
def announcesMore (limit : Nat) (r : Request) : Bool :=
  match announced? r with
  | some n => (limit : Int) < n
  | none => false

/-- The methods whose bodies are counted. -/
def countedMethods : List String := ["POST", "PUT", "PATCH"]

/-- Whether a body of chunks has more bytes than remain below the limit. Counting stops at the chunk
that goes beyond it. -/
def exceeds (remaining : Nat) : List (List UInt8) → Bool
  | [] => false
  | chunk :: rest =>
    if remaining < chunk.length then true else exceeds (remaining - chunk.length) rest

/-- The answer to a body that is too large. -/
def tooLarge (path : List Char) : Response :=
  .detail 413 (.string s!"Request body too large (max {mebibytesAt path} MB)")

/-- Holds the requests of a handler to the limit of a path. -/
def limitedAt (path : List Char) (handler : Handler) : Handler := fun r =>
  if announcesMore (limitAt path) r then tooLarge path
  else if r.method ∈ countedMethods then
    if exceeds (limitAt path) r.body then tooLarge path
    else handler { r with body := [r.bytes] }
  else handler r

/-- Holds the requests of a handler to the limit. There is no response to a request whose address
cannot be read. -/
def limited (handler : Handler) (r : Request) : Option Response :=
  r.addressPath?.map fun path => limitedAt path handler r

end TweeLint.Http.BodyLimit
