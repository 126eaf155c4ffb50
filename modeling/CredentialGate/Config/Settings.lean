import CredentialGate.Files.FilePath
import CredentialGate.Session.Slot

/-! The settings of the server and of the session client, and their standard values. The address of
the identity directory has none: it has to be configured before a session can run. -/
namespace CredentialGate.Config

open Files Session

structure Server where
  bind : String
  port : UInt16
  dbPath : FilePath
  auditLog : FilePath
  logDir? : Option FilePath
deriving DecidableEq, Repr

def Server.standard : Server where
  bind := "127.0.0.1"
  port := 8089
  dbPath := ⟨".tokengate/credentials.db"⟩
  auditLog := ⟨".tokengate/audit/token-review.jsonl"⟩
  logDir? := none

/-- Where the calls of the primary backend lie below its address. -/
structure PrimaryPaths where
  login : String
  whoami : String
  logout : String
  passwordEmail : String
  passwordReset : String
deriving DecidableEq, Repr

def PrimaryPaths.standard : PrimaryPaths where
  login := "/login"
  whoami := "/api/user"
  logout := "/logout"
  passwordEmail := "/password/email"
  passwordReset := "/password/reset"

structure Client where
  primaryUrl : String
  identityApiUrl? : Option String
  identityApiPrefix : String
  /-- In seconds. -/
  requestTimeout : UInt64
  logoutPolicy : LogoutPolicy
  storagePath? : Option FilePath
  paths : PrimaryPaths
deriving DecidableEq, Repr

def Client.standard : Client where
  primaryUrl := "http://127.0.0.1:8000"
  identityApiUrl? := none
  identityApiPrefix := "/apis/apps.edgenet.io/v1alpha"
  requestTimeout := 30
  logoutPolicy := .standard
  storagePath? := none
  paths := .standard

structure Settings where
  server : Server
  client : Client
deriving DecidableEq, Repr

def Settings.standard : Settings := ⟨.standard, .standard⟩

end CredentialGate.Config
