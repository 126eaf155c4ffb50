import CredentialGate.Json.Document
import CredentialGate.Store.Table

/-! Tables of users as bytes of a file: an object with a list of rows. A user without token has
none in its row. -/
namespace CredentialGate.Store

open Json

def Row.document (r : Row) : Value :=
  .object ([("name", .text r.user.name), ("email", .text r.user.email),
    ("authority", .text r.user.authority)] ++
    (r.token?.map fun token => ("token", .text token)).toList)

def Row.ofDocument? (v : Value) : Option Row := do
  let name ← (v.member? "name").bind Value.asText?
  let email ← (v.member? "email").bind Value.asText?
  let authority ← (v.member? "authority").bind Value.asText?
  return ⟨⟨name, email, authority⟩, (v.member? "token").bind Value.asText?⟩

namespace Table

def archiveKey : String := "credential users"

def archive (t : Table) : Bytes :=
  (Value.object [(archiveKey, .list (t.rows.map Row.document))]).write

/-- The table of an archive; none if the bytes are no archive. -/
def ofArchive? (bytes : Bytes) : Option Table :=
  match Json.document bytes with
  | .ok (.object [(key, .list rows)]) =>
    if key = archiveKey then (rows.mapM Row.ofDocument?).bind fun rows => (ofRows rows).toOption
    else none
  | _ => none

end Table

end CredentialGate.Store
