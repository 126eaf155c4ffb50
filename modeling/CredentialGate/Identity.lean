import CredentialGate.Json.Document
import CredentialGate.Json.Record

/-! Who a user is. The primary backend issues an identity with a bearer credential, and the identity
directory confirms the user by a record. -/
namespace CredentialGate

open Json Reader

/-- A bearer credential. It is opaque: it is compared and sent, never taken apart. -/
structure Credential where
  token : String
deriving DecidableEq, Repr

namespace Credential

def isEmpty (c : Credential) : Bool := c.token.isEmpty

def bearer (c : Credential) : String := "Bearer " ++ c.token

/-- What is shown of a credential in place of its token. -/
def redacted (_ : Credential) : String := "Credential(<redacted>)"

def document (c : Credential) : Value := .text c.token

end Credential

/-- The identity that the primary backend issues: four known attributes, and any others, which are
kept as they are. -/
structure LocalIdentity where
  name : String
  email : String
  authority : String
  credential? : Option Credential
  extra : Members

namespace LocalIdentity

/-- The credential, unless it is absent or empty. -/
def usableCredential? (i : LocalIdentity) : Option Credential :=
  i.credential?.filter (!·.isEmpty)

/-- The known attributes in their order, without an absent credential, then the others by key. -/
def document (i : LocalIdentity) : Value :=
  let credential := i.credential?.toList.map fun c => ("api_token", c.document)
  .object ([("name", .text i.name), ("email", .text i.email), ("authority", .text i.authority)] ++
    credential ++ i.extra)

/-- An identity that is being read. Other attributes stand in reverse, as written. -/
structure Draft where
  name? : Option String := none
  email? : Option String := none
  authority? : Option String := none
  credential? : Option (Option String) := none
  others : Members := []

def fields : List (RecordField Draft) := [
  .of "name" Draft.name? (fun v d => { d with name? := some v }) textValue,
  .of "email" Draft.email? (fun v d => { d with email? := some v }) textValue,
  .of "authority" Draft.authority? (fun v d => { d with authority? := some v }) textValue,
  .of "api_token" Draft.credential? (fun v d => { d with credential? := some v })
    (optionalValue textValue)]

def readAttribute (draft : Draft) (key : String) : Reader Draft :=
  if (fields.find? (·.name = key)).isSome then readMember fields draft key
  else do
    colon
    let v ← value asWritten (greatestDepth - 1)
    return { draft with others := (key, v) :: draft.others }

def Draft.finish (draft : Draft) : Except Cause LocalIdentity := do
  let others ← canonicaliseMembers draft.others.reverse
  return {
    name := draft.name?.getD ""
    email := draft.email?.getD ""
    authority := draft.authority?.getD ""
    credential? := draft.credential?.join.map Credential.mk
    extra := canonicalMembers others }

/-- An identity is an object. An attribute that is missing is empty, and none is known twice. -/
def reader : Reader LocalIdentity := do
  if (← token) = some openObject then
    let _ ← next
    let draft ← eachMember readAttribute true {}
    match draft.finish with
    | .error cause => fail cause
    | .ok identity =>
      endObject
      return identity
  else wrongType

def read (input : Bytes) : Except Failure LocalIdentity := whole reader input

end LocalIdentity

/-- The record by which the identity directory confirms a user. It may be any JSON value. -/
structure RemoteIdentity where
  record : Value

namespace RemoteIdentity

/-- The name in the metadata of the record, if it is a text. -/
def name? (i : RemoteIdentity) : Option String :=
  ((i.record.member? "metadata").bind (·.member? "name")).bind (·.asText?)

def read (input : Bytes) : Except Failure RemoteIdentity :=
  (Json.document input).map RemoteIdentity.mk

end RemoteIdentity

end CredentialGate
