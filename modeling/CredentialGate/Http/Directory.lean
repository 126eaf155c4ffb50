import CredentialGate.Http.Exchange

/-! The identity directory over the network: where it keeps its users, and the look-up of one. -/
namespace CredentialGate.Http

open Session

/-- The address of an identity directory: where its interface is, and the path to it. -/
structure Directory where
  base : String
deriving DecidableEq, Repr

namespace Directory

def dropSlashes (cs : List Char) : List Char := cs.dropWhile (· == '/')

def dropLastSlashes (cs : List Char) : List Char := (dropSlashes cs.reverse).reverse

/-- Slashes at the end of the address and on both ends of the path do not count. -/
def of (address path : String) : Directory :=
  ⟨String.ofList (dropLastSlashes address.toList ++
    '/' :: dropLastSlashes (dropSlashes path.toList))⟩

/-- The segments that lead to a user. -/
def segmentsOf (authority name : String) : List String :=
  ["namespaces", "authority-" ++ authority, "users", name]

/-- The address of a user. -/
def userUrl (d : Directory) (authority name : String) : Except BackendFailure Url :=
  match Url.read d.base with
  | .error e => .error (.clientConstruction e.message)
  | .ok base =>
    match base.below? (segmentsOf authority name) with
    | some url => .ok url
    | none => .error (.clientConstruction (d.base ++ " cannot be a base URL"))

def unreadableRecord : String := "unreadable identity record: "

/-- The record in an answer. It may be any JSON value. -/
def recordOf (r : Response) : Except BackendFailure RemoteIdentity := do
  let body ← r.wholeBody
  (RemoteIdentity.read body).mapError fun e =>
    .response r.status (unreadableRecord ++ e.message body)

def fetchRequest (d : Directory) (authority name : String) (bearer? : Option Credential) :
    Except BackendFailure Request :=
  Request.build .get (d.userUrl authority name) bearer? none

def fetchUser (d : Directory) (net : Network σ) (authority name : String)
    (bearer? : Option Credential) (s : σ) : Except BackendFailure RemoteIdentity × σ :=
  let (answer, s) := exchange net (d.fetchRequest authority name bearer?) s
  (answer.bind recordOf, s)

end Directory

end CredentialGate.Http
