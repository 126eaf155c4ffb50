import CredentialGate.Digest.Sha256
import CredentialGate.Json.Value

/-! What the audit trail says happened. A token occurs in it as a fingerprint only. -/
namespace CredentialGate.Audit

open Json

/-- The first eight bytes of the digest of a token, in base sixteen. -/
def fingerprint (token : String) : String :=
  String.ofList (((Digest.Sha256.digest (Text.utf8 token)).take 8).flatMap Text.lowerHex)

inductive Action
  /-- A review request arrived; nothing has been checked yet. -/
  | reviewReceived (kind? apiVersion? fingerprint? : Option String)
  /-- A token belongs to a user. -/
  | authenticated (name username : String)
deriving DecidableEq, Repr

namespace Action

def receivedTag : String := "review_received"
def authenticatedTag : String := "authenticated"

/-- The members of the written action, its tag first. -/
def members : Action → Members
  | .reviewReceived kind? apiVersion? fingerprint? =>
    [("action", .text receivedTag), ("kind", .optional kind?),
      ("api_version", .optional apiVersion?), ("token_fingerprint", .optional fingerprint?)]
  | .authenticated name username =>
    [("action", .text authenticatedTag), ("name", .text name), ("username", .text username)]

def document (a : Action) : Value := .object a.members

end Action

end CredentialGate.Audit
