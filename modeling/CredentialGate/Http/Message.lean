import CredentialGate.Json.Value
import CredentialGate.Session.Backend
import CredentialGate.Url.Reading

/-! Requests to backends and their responses. A request that is built can go out: its address is one
of the web, and its header fields are legal. -/
namespace CredentialGate.Http

open Session

inductive Method
  | get
  | post
deriving DecidableEq, Repr

def Method.name : Method → String
  | get => "GET"
  | post => "POST"

structure Request where
  method : Method
  url : Url
  authorization? : Option String
  document? : Option Json.Value

def userAgent : String := "tokengate/0.1.0"
def jsonType : String := "application/json"

namespace Request

/-- The header fields that carry meaning. -/
def headers (r : Request) : List (String × String) :=
  [("accept", jsonType), ("user-agent", userAgent)] ++
    (r.authorization?.map fun field => ("authorization", field)).toList ++
    (r.document?.map fun _ => ("content-type", jsonType)).toList

def body (r : Request) : Json.Bytes := (r.document?.map Json.Value.write).getD []

/-- A field holds no control character but the tab. -/
def isLegalField (s : String) : Bool :=
  s.toList.all fun c => c == '\t' || (0x20 ≤ c.toNat && c.toNat ≠ 0x7F)

/-- The characters that a host may hold in an address but not in a request. -/
def isOddHostChar (c : Char) : Bool := c.toNat ∈ [0x22, 0x60, 0x7B, 0x7D]

/-- The greatest address that a request may have, in bytes. -/
def greatestUrl : Nat := 65534

/-- Whether a request may go to an address. -/
def isReachable (url : Url) : Bool :=
  url.isWeb && url.host?.any (fun host => !host.toList.any isOddHostChar) &&
    (Text.utf8 url.text).length ≤ greatestUrl

/-- A request, or the reason why none can be built. -/
def build (method : Method) (url : Except BackendFailure Url) (bearer? : Option Credential)
    (document? : Option Json.Value) : Except BackendFailure Request := do
  let url ← url
  if isReachable url then
    match bearer?.map Credential.bearer with
    | none => return ⟨method, url, none, document?⟩
    | some field =>
      if isLegalField field then return ⟨method, url, some field, document?⟩
      else .error (.clientConstruction "failed to parse header value")
  else .error (.clientConstruction "no request can go to this address")

end Request

/-- A response. Its body may have broken off before the promised end. -/
structure Response where
  status : Nat
  location? : Option String
  body : Json.Bytes
  isComplete : Bool

namespace Response

def isSuccess (r : Response) : Bool := 200 ≤ r.status && r.status < 300

/-- What an error body tells: a text, or nothing. -/
structure Complaint where
  message? : Option (Option String) := none

def complaintReader : Json.Reader String :=
  Json.record [
    .of "message" Complaint.message? (fun v c => { c with message? := some v })
      (Json.optionalValue Json.textValue)] {} fun c => .ok (c.message?.join.getD "")

/-- The message of an error body. A body that cannot be read has none. -/
def complaint (r : Response) : String :=
  match Json.whole complaintReader r.body with
  | .ok message => if r.isComplete then message else ""
  | .error _ => ""

/-- A response is an answer if it is a success, and a failure otherwise. -/
def successOnly (r : Response) : Except BackendFailure Response :=
  if r.isSuccess then .ok r else .error (.response r.status r.complaint)

/-- The whole body of a success. -/
def wholeBody (r : Response) : Except BackendFailure Json.Bytes :=
  if r.isComplete then .ok r.body else .error (.unreachable "the body broke off")

end Response

end CredentialGate.Http
