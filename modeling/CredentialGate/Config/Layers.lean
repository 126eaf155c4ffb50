import CredentialGate.Config.Sections
import CredentialGate.Files.Tree

/-! Where settings come from: the standard values, a file over them, the environment over the file
and the command line over all. A file that exists has to be readable; nothing is put in its
place. -/
namespace CredentialGate.Config

open Files Session

/-- The values of variables, and the home directory that the system knows for the account. A
variable whose value is no text counts as not set. -/
structure Environment where
  values : List (String × String)
  accountHome? : Option String

namespace Environment

def get? (env : Environment) (name : String) : Option String := env.values.lookup name

/-- The value of a variable that is set to more than an empty text. -/
def given? (env : Environment) (name : String) : Option String :=
  (env.get? name).filter (· ≠ "")

end Environment

def fileName : String := "tokengate.toml"
def dbVariable : String := "TOKENGATE_DB"
def identityApiVariable : String := "TOKENGATE_IDENTITY_API"

inductive Failure
  | cannotRead (path : FilePath)
  | malformed
  | cannotWrite (path : FilePath)
  | identityApiMissing
deriving DecidableEq, Repr

def Failure.message : Failure → String
  | cannotRead path => "Failed to read config file: " ++ path.text
  | malformed => "Failed to parse " ++ fileName
  | cannotWrite path => "Failed to write config file: " ++ path.text
  | identityApiMissing =>
    "Identity API endpoint not configured: set client.identity_api_url in " ++ fileName ++ " or " ++
      identityApiVariable

namespace Settings

def load (path : FilePath) (t : Tree) : Except Failure Settings :=
  match t.readText? path with
  | none => .error (.cannotRead path)
  | some content =>
    match ofText? content with
    | none => .error .malformed
    | some s => .ok s

def save (s : Settings) (path : FilePath) (t : Tree) : Except Failure Tree :=
  match t.write? path (.bytes (Text.utf8 s.toText)) with
  | some t => .ok t
  | none => .error (.cannotWrite path)

def underEnvironment (s : Settings) (env : Environment) : Settings where
  server := { s.server with
    dbPath := ((env.given? dbVariable).map FilePath.mk).getD s.server.dbPath }
  client := { s.client with
    identityApiUrl? := (env.given? identityApiVariable).or s.client.identityApiUrl? }

/-- The settings of the file, if there is one, under the environment. -/
def loadOrDefault (path : FilePath) (t : Tree) (env : Environment) : Except Failure Settings := do
  let s ← if t.contains path then load path t else .ok standard
  return s.underEnvironment env

end Settings

structure Overrides where
  bind? : Option String
  port? : Option UInt16
  logoutPolicy? : Option LogoutPolicy
deriving DecidableEq, Repr

def Overrides.none : Overrides := ⟨.none, .none, .none⟩

def Settings.overriddenBy (s : Settings) (o : Overrides) : Settings where
  server := { s.server with bind := o.bind?.getD s.server.bind, port := o.port?.getD s.server.port }
  client := { s.client with logoutPolicy := o.logoutPolicy?.getD s.client.logoutPolicy }

namespace Client

def identityApiUrl (c : Client) : Except Failure String :=
  match c.identityApiUrl? with
  | some url => .ok url
  | none => .error .identityApiMissing

/-- The directory for data of the user. A relative one is not taken from the environment. -/
def dataDirectory (env : Environment) : FilePath :=
  match (env.get? "XDG_DATA_HOME").map FilePath.mk with
  | some path => if path.isAbsolute then path else underHome
  | none => underHome
where underHome : FilePath :=
  match (env.given? "HOME").or env.accountHome? with
  | some home => (FilePath.mk home).join ".local/share"
  | none => ⟨"."⟩

def storagePath (c : Client) (env : Environment) : FilePath :=
  c.storagePath?.getD (((dataDirectory env).join "tokengate").join "api_token")

end Client

end CredentialGate.Config
