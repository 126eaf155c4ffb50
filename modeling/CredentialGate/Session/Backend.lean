import CredentialGate.Identity

/-! What the session asks of others: the primary backend, which issues credentials, and the
directory, which confirms users. Every call that needs a credential is handed it. -/
namespace CredentialGate.Session

inductive BackendFailure
  /-- The backend answered with a status that is no success. -/
  | response (status : Nat) (message : String)
  /-- No answer came back. -/
  | unreachable (reason : String)
  /-- The request could not be built or sent. -/
  | clientConstruction (reason : String)
  /-- What the backend issued is no identity. -/
  | invalidIdentity
deriving DecidableEq, Repr

namespace BackendFailure

def unreachableMessage : String := "server is not responding, try later"
def clientMessage : String := "client error"
def invalidTokenMessage : String := "invalid token"

def display : BackendFailure → String
  | response status message => "backend responded with " ++ toString status ++ ": " ++ message
  | unreachable reason => "backend unreachable: " ++ reason
  | clientConstruction reason => "failed to construct request: " ++ reason
  | invalidIdentity => "issued identity has no credential"

/-- What the user is told. -/
def userMessage : BackendFailure → String
  | response _ message => message
  | unreachable _ => unreachableMessage
  | clientConstruction _ => clientMessage
  | invalidIdentity => invalidTokenMessage

end BackendFailure

structure PasswordReset where
  email : String
  token : String
  password : String
  confirmation : String
deriving DecidableEq, Repr

def PasswordReset.document (r : PasswordReset) : Json.Value :=
  .object [("email", .text r.email), ("token", .text r.token), ("password", .text r.password),
    ("password_confirmation", .text r.confirmation)]

end CredentialGate.Session
