import CredentialGate.Config.Settings
import CredentialGate.Toml.Writer

/-! Settings as sections of a TOML document. A section gives its fields by name in a table, or in
order in an array; a field that is not given has its standard value, and an optional one is absent.
An entry that is no field is passed over. -/
namespace CredentialGate.Config

open Files Session

/-- The values that a section gives to its fields, whose names stand in order. Further items of an
array are not looked at. An array of tables gives none: the first field of a section is a text. A
date or a time counts as a section that leaves every field out. -/
def fields? (names : List String) : Toml.Value → Option (String → Option Toml.Value)
  | .table _ entries =>
    if entries.all fun (key, v) => names.contains key || v.fits then
      some fun name => entries.lookup name
    else none
  | .array items => some fun name => (names.zip items).lookup name
  | .moment _ => some fun _ => none
  | _ => none

def textOr? (standard : String) : Option Toml.Value → Option String
  | none => some standard
  | some (.text s) => some s
  | some _ => none

def pathOr? (standard : FilePath) (given : Option Toml.Value) : Option FilePath :=
  (textOr? standard.text given).map FilePath.mk

def optionalText? : Option Toml.Value → Option (Option String)
  | none => some none
  | some (.text s) => some (some s)
  | some _ => none

def optionalPath? (given : Option Toml.Value) : Option (Option FilePath) :=
  (optionalText? given).map (·.map FilePath.mk)

/-- An integer from zero up to, and without, a bound. -/
def naturalOr? (standard bound : Nat) : Option Toml.Value → Option Nat
  | none => some standard
  | some (.integer n) => if 0 ≤ n ∧ n < bound then some n.toNat else none
  | some _ => none

/-- A policy is given by its name, or by a table with an empty value under its name. -/
def policyOr? (standard : LogoutPolicy) : Option Toml.Value → Option LogoutPolicy
  | none => some standard
  | some (.text s) => LogoutPolicy.ofName? s
  | some (.table _ [(name, .table _ [])]) => LogoutPolicy.ofName? name
  | some (.table _ [(name, .array [])]) => LogoutPolicy.ofName? name
  | some _ => none

/-- A section that is not given has its standard value. -/
def sectionOr? (standard : α) (read? : Toml.Value → Option α) : Option Toml.Value → Option α
  | none => some standard
  | some v => read? v

namespace Server

def fieldNames : List String := ["bind", "port", "db_path", "audit_log", "log_dir"]

def read? (v : Toml.Value) : Option Server := do
  let given ← fields? fieldNames v
  return {
    bind := ← textOr? standard.bind (given "bind")
    port := (← naturalOr? standard.port.toNat UInt16.size (given "port")).toUInt16
    dbPath := ← pathOr? standard.dbPath (given "db_path")
    auditLog := ← pathOr? standard.auditLog (given "audit_log")
    logDir? := ← optionalPath? (given "log_dir") }

def toSection (s : Server) : Toml.Section where
  header := ⟨[], "server"⟩
  entries :=
    [("bind", .text s.bind), ("port", .natural s.port.toNat), ("db_path", .text s.dbPath.text),
      ("audit_log", .text s.auditLog.text)] ++
    (s.logDir?.map fun p => ("log_dir", .text p.text)).toList

end Server

namespace PrimaryPaths

def fieldNames : List String := ["login", "whoami", "logout", "password_email", "password_reset"]

def read? (v : Toml.Value) : Option PrimaryPaths := do
  let given ← fields? fieldNames v
  return {
    login := ← textOr? standard.login (given "login")
    whoami := ← textOr? standard.whoami (given "whoami")
    logout := ← textOr? standard.logout (given "logout")
    passwordEmail := ← textOr? standard.passwordEmail (given "password_email")
    passwordReset := ← textOr? standard.passwordReset (given "password_reset") }

def toSection (p : PrimaryPaths) : Toml.Section where
  header := ⟨["client"], "paths"⟩
  entries :=
    [("login", .text p.login), ("whoami", .text p.whoami), ("logout", .text p.logout),
      ("password_email", .text p.passwordEmail), ("password_reset", .text p.passwordReset)]

end PrimaryPaths

namespace Client

def fieldNames : List String :=
  ["primary_url", "identity_api_url", "identity_api_prefix", "request_timeout_secs",
    "logout_policy", "storage_path", "paths"]

def read? (v : Toml.Value) : Option Client := do
  let given ← fields? fieldNames v
  return {
    primaryUrl := ← textOr? standard.primaryUrl (given "primary_url")
    identityApiUrl? := ← optionalText? (given "identity_api_url")
    identityApiPrefix := ← textOr? standard.identityApiPrefix (given "identity_api_prefix")
    requestTimeout := (← naturalOr? standard.requestTimeout.toNat UInt64.size
      (given "request_timeout_secs")).toUInt64
    logoutPolicy := ← policyOr? standard.logoutPolicy (given "logout_policy")
    storagePath? := ← optionalPath? (given "storage_path")
    paths := ← sectionOr? .standard PrimaryPaths.read? (given "paths") }

/-- The section of the fields that are no sections themselves. -/
def toSection (c : Client) : Toml.Section where
  header := ⟨[], "client"⟩
  entries :=
    [("primary_url", .text c.primaryUrl)] ++
    (c.identityApiUrl?.map fun url => ("identity_api_url", .text url)).toList ++
    [("identity_api_prefix", .text c.identityApiPrefix),
      ("request_timeout_secs", .natural c.requestTimeout.toNat),
      ("logout_policy", .text c.logoutPolicy.name)] ++
    (c.storagePath?.map fun p => ("storage_path", .text p.text)).toList

end Client

namespace Settings

def fieldNames : List String := ["server", "client"]

def ofEntries? (entries : Toml.Entries) : Option Settings := do
  let given ← fields? fieldNames (.table .named entries)
  return {
    server := ← sectionOr? .standard Server.read? (given "server")
    client := ← sectionOr? .standard Client.read? (given "client") }

def ofText? (s : String) : Option Settings := do
  ofEntries? (← Toml.read? s)

def toSections (s : Settings) : List Toml.Section :=
  [s.server.toSection, s.client.toSection, s.client.paths.toSection]

def toText (s : Settings) : String := String.ofList (Toml.writeSections s.toSections)

end Settings

end CredentialGate.Config
