import CredentialGate.Review.Decision

/-! The webhook: one route takes reviews, one tells that the webhook is alive. -/
namespace CredentialGate.Webhook

open Json Review Store

structure Request where
  method : String
  target : String
  body : Bytes

structure Reply where
  status : Nat
  contentType? : Option String
  allow? : Option String
  body : Bytes
deriving DecidableEq, Repr

def jsonType : String := "application/json"
def plainType : String := "text/plain; charset=utf-8"

/-- The phrase of a status that a reply or a review may have. -/
def phraseOf (status : Nat) : String :=
  if status = 200 then "OK"
  else if status = 400 then "Bad Request"
  else if status = 401 then "Unauthorized"
  else if status = 404 then "Not Found"
  else if status = 405 then "Method Not Allowed"
  else if status = 413 then "Payload Too Large"
  else ""

def bodyLimit : Nat := 2097152

namespace Reply

def json (status : Nat) (v : Value) : Reply := ⟨status, some jsonType, none, v.write⟩

def tooLarge : Reply :=
  ⟨413, some plainType, none,
    Text.utf8 "Failed to buffer the request body: length limit exceeded"⟩

def notFound : Reply := ⟨404, none, none, []⟩

def methodNotAllowed (allow : String) : Reply := ⟨405, none, some allow, []⟩

def healthy : Reply := .json 200 (.object [("status", .text "ok")])

end Reply

/-- A body that is no review request counts as a request without fields. -/
def requestOf (body : Bytes) : Review.Request :=
  match Review.Request.read body with
  | .ok request => request
  | .error _ => .empty

def authenticate (lookup : Lookup) (sink : Sink σ) (body : Bytes) (s : σ) : Reply × σ :=
  if bodyLimit < body.length then (.tooLarge, s)
  else
    let (outcome, s) := review lookup sink (requestOf body) s
    (.json outcome.status outcome.body.document, s)

/-- The path of a target: what stands before the query, and behind scheme and host if it names
them. -/
def pathOf (target : String) : String :=
  let beforeQuery := target.toList.takeWhile fun c => c != '?' && c != '#'
  let scheme := ["http://".toList, "https://".toList].find? (·.isPrefixOf beforeQuery)
  match scheme with
  | some scheme => String.ofList ((beforeQuery.drop scheme.length).dropWhile (· != '/'))
  | none => String.ofList beforeQuery

def reviewPath : String := "/authenticate"
def healthPath : String := "/health"

def answer (lookup : Lookup) (sink : Sink σ) (request : Request) (s : σ) : Reply × σ :=
  let path := pathOf request.target
  if path = reviewPath then
    if request.method = "POST" then authenticate lookup sink request.body s
    else (.methodNotAllowed "POST", s)
  else if path = healthPath then
    if request.method = "GET" then (.healthy, s)
    else if request.method = "HEAD" then ({ Reply.healthy with body := [] }, s)
    else (.methodNotAllowed "GET,HEAD", s)
  else (.notFound, s)

end CredentialGate.Webhook
