import CredentialGate.Http.Message

/-! Exchanges of requests and responses over a network that may do anything: it answers a request
or loses it. A response that redirects is followed a bounded number of times. -/
namespace CredentialGate.Http

open Session

/-- What becomes of a request, and of the state of the network. -/
structure Network (σ : Type) where
  send : Request → σ → Option Response × σ

/-- The network that loses every request. -/
def Network.down : Network σ := ⟨fun _ s => (none, s)⟩

/-- How often redirects are followed. -/
def greatestRedirects : Nat := 10

def redirectStatuses : List Nat := [301, 302, 303, 307, 308]

/-- Where a response sends the request, if it does. -/
def redirection? (url : Url) (r : Response) : Option Url :=
  if r.status ∈ redirectStatuses then
    r.location?.bind fun location => (Url.join url location).toOption
  else none

def sameServer (a b : Url) : Bool := a.host? == b.host? && a.port? == b.port?

/-- The request that a redirect asks for. Only the statuses 307 and 308 keep the method and the
body, and only the same server is told the credential. -/
def Request.redirected (r : Request) (status : Nat) (url : Url) : Request where
  method := if status = 307 ∨ status = 308 then r.method else .get
  url := url
  authorization? := if sameServer r.url url then r.authorization? else none
  document? := if status = 307 ∨ status = 308 then r.document? else none

/-- The last response to a request, after at most so many redirects. -/
def followUp (net : Network σ) (r : Request) : Nat → σ → Except BackendFailure Response × σ
  | redirects, s =>
    match net.send r s with
    | (none, s) => (.error (.unreachable "no response"), s)
    | (some response, s) =>
      match redirection? r.url response with
      | none => (.ok response, s)
      | some url =>
        match redirects with
        | 0 => (.error (.unreachable "too many redirects"), s)
        | redirects + 1 =>
          if Request.isReachable url then
            followUp net (r.redirected response.status url) redirects s
          else (.error (.clientConstruction "no request can go to this address"), s)
termination_by redirects => redirects

/-- Sends a request that has been built, and takes nothing but a success for an answer. -/
def exchange (net : Network σ) (request : Except BackendFailure Request) (s : σ) :
    Except BackendFailure Response × σ :=
  match request with
  | .error e => (.error e, s)
  | .ok r =>
    let (response, s) := followUp net r greatestRedirects s
    (response.bind Response.successOnly, s)

end CredentialGate.Http
