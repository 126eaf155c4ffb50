import CredentialGate.Config.Settings
import CredentialGate.Http.Exchange

/-! The primary backend over the network. An identity in its answer is read as it is; what cannot
be read counts as an identity that was never issued. -/
namespace CredentialGate.Http

open Session

/-- The address of the primary backend without slashes at its end, and the paths below it. -/
structure Primary where
  base : String
  paths : Config.PrimaryPaths
deriving DecidableEq, Repr

namespace Primary

def of (address : String) (paths : Config.PrimaryPaths) : Primary :=
  ⟨String.ofList (address.toList.reverse.dropWhile (· == '/')).reverse, paths⟩

/-- The address of a path, which is appended as it is. -/
def url (p : Primary) (path : String) : Except BackendFailure Url :=
  (Url.read (p.base ++ path)).mapError fun e => .clientConstruction e.message

def identityOf (r : Response) : Except BackendFailure LocalIdentity := do
  let body ← r.wholeBody
  (LocalIdentity.read body).mapError fun _ => .invalidIdentity

def loginDocument (email password : String) : Json.Value :=
  .object [("email", .text email), ("password", .text password)]

def resetLinkDocument (email : String) : Json.Value := .object [("email", .text email)]

def loginRequest (p : Primary) (email password : String) : Except BackendFailure Request :=
  Request.build .post (p.url p.paths.login) none (some (loginDocument email password))

def whoamiRequest (p : Primary) (bearer : Credential) : Except BackendFailure Request :=
  Request.build .get (p.url p.paths.whoami) (some bearer) none

def logoutRequest (p : Primary) (bearer? : Option Credential) : Except BackendFailure Request :=
  Request.build .post (p.url p.paths.logout) bearer? none

def resetLinkRequest (p : Primary) (email : String) : Except BackendFailure Request :=
  Request.build .post (p.url p.paths.passwordEmail) none (some (resetLinkDocument email))

def resetPasswordRequest (p : Primary) (reset : PasswordReset) : Except BackendFailure Request :=
  Request.build .post (p.url p.paths.passwordReset) none (some reset.document)

/-- A call whose answer is an identity. -/
def askIdentity (net : Network σ) (request : Except BackendFailure Request) (s : σ) :
    Except BackendFailure LocalIdentity × σ :=
  let (answer, s) := exchange net request s
  (answer.bind identityOf, s)

/-- A call of which only the success counts. -/
def tell (net : Network σ) (request : Except BackendFailure Request) (s : σ) :
    Except BackendFailure Unit × σ :=
  let (answer, s) := exchange net request s
  (answer.map fun _ => (), s)

def login (p : Primary) (net : Network σ) (email password : String) :=
  askIdentity net (p.loginRequest email password)

def whoami (p : Primary) (net : Network σ) (bearer : Credential) :=
  askIdentity net (p.whoamiRequest bearer)

def logout (p : Primary) (net : Network σ) (bearer? : Option Credential) :=
  tell net (p.logoutRequest bearer?)

def sendResetLink (p : Primary) (net : Network σ) (email : String) :=
  tell net (p.resetLinkRequest email)

def resetPassword (p : Primary) (net : Network σ) (reset : PasswordReset) :=
  tell net (p.resetPasswordRequest reset)

end Primary

end CredentialGate.Http
