import CredentialGate.Json.Record

/-! The objects of a token review. A request leaves every field open, so that one that lacks
fields still gets an answer; a response always has its three fields. -/
namespace CredentialGate.Review

open Json

def reviewKind : String := "TokenReview"
def reviewVersion : String := "authentication.k8s.io/v1beta1"

structure Spec where
  token? : Option String
deriving DecidableEq, Repr

structure Request where
  kind? : Option String
  apiVersion? : Option String
  spec? : Option Spec
deriving DecidableEq, Repr

structure ReviewedUser where
  username : String
  groups : List String
deriving DecidableEq, Repr

structure Status where
  authenticated : Bool
  user? : Option ReviewedUser
deriving DecidableEq, Repr

structure Response where
  apiVersion : String
  kind : String
  status : Status
deriving DecidableEq, Repr

namespace Spec

def document (s : Spec) : Value := .object [("token", .optional s.token?)]

structure Draft where
  token? : Option (Option String) := none

def reader : Reader Spec :=
  record [.of "token" Draft.token? (fun v d => { d with token? := some v })
      (optionalValue textValue)] {}
    fun d => .ok ⟨d.token?.join⟩

end Spec

namespace Request

def empty : Request := ⟨none, none, none⟩

def forToken (token : String) : Request :=
  ⟨some reviewKind, some reviewVersion, some ⟨some token⟩⟩

/-- The token, unless it is absent or empty. -/
def token? (r : Request) : Option String :=
  (r.spec?.bind (·.token?)).filter (!·.isEmpty)

/-- A field that is absent is written as null. -/
def document (r : Request) : Value :=
  .object [("kind", .optional r.kind?), ("apiVersion", .optional r.apiVersion?),
    ("spec", (r.spec?.map Spec.document).getD .null)]

structure Draft where
  kind? : Option (Option String) := none
  apiVersion? : Option (Option String) := none
  spec? : Option (Option Spec) := none

def fields : List (RecordField Draft) := [
  .of "kind" Draft.kind? (fun v d => { d with kind? := some v }) (optionalValue textValue),
  .of "apiVersion" Draft.apiVersion? (fun v d => { d with apiVersion? := some v })
    (optionalValue textValue),
  .of "spec" Draft.spec? (fun v d => { d with spec? := some v }) (optionalValue Spec.reader)]

def Draft.finish (d : Draft) : Request := ⟨d.kind?.join, d.apiVersion?.join, d.spec?.join⟩

def reader : Reader Request := record fields {} fun d => .ok d.finish

def read (input : Bytes) : Except Failure Request := whole reader input

end Request

namespace ReviewedUser

def document (u : ReviewedUser) : Value :=
  .object [("username", .text u.username), ("groups", .list (u.groups.map .text))]

structure Draft where
  username? : Option String := none
  groups? : Option (List String) := none

/-- The groups may be missing; then there are none. -/
def reader : Reader ReviewedUser :=
  record [.of "username" Draft.username? (fun v d => { d with username? := some v }) textValue,
      .of "groups" Draft.groups? (fun v d => { d with groups? := some v }) (listOf textValue)] {}
    fun d => do return ⟨← required d.username?, d.groups?.getD []⟩

end ReviewedUser

namespace Status

/-- A user that is absent is not written. -/
def document (s : Status) : Value :=
  .object (("authenticated", .bool s.authenticated) ::
    s.user?.toList.map fun u => ("user", u.document))

structure Draft where
  authenticated? : Option Bool := none
  user? : Option (Option ReviewedUser) := none

def reader : Reader Status :=
  record [.of "authenticated" Draft.authenticated?
        (fun v d => { d with authenticated? := some v }) boolValue,
      .of "user" Draft.user? (fun v d => { d with user? := some v })
        (optionalValue ReviewedUser.reader)] {}
    fun d => do return ⟨← required d.authenticated?, d.user?.join⟩

end Status

namespace Response

def unauthenticated : Response := ⟨reviewVersion, reviewKind, ⟨false, none⟩⟩

def authenticated (username : String) (groups : List String) : Response :=
  ⟨reviewVersion, reviewKind, ⟨true, some ⟨username, groups⟩⟩⟩

def document (r : Response) : Value :=
  .object [("apiVersion", .text r.apiVersion), ("kind", .text r.kind),
    ("status", r.status.document)]

structure Draft where
  apiVersion? : Option String := none
  kind? : Option String := none
  status? : Option Status := none

def fields : List (RecordField Draft) := [
  .of "apiVersion" Draft.apiVersion? (fun v d => { d with apiVersion? := some v }) textValue,
  .of "kind" Draft.kind? (fun v d => { d with kind? := some v }) textValue,
  .of "status" Draft.status? (fun v d => { d with status? := some v }) Status.reader]

def reader : Reader Response :=
  record fields {} fun d => do
    return ⟨← required d.apiVersion?, ← required d.kind?, ← required d.status?⟩

def read (input : Bytes) : Except Failure Response := whole reader input

end Response

end CredentialGate.Review
