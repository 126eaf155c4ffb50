import CredentialGate.Audit.Log
import CredentialGate.Config.Layers
import CredentialGate.Store.Database
import CredentialGate.Webhook

/-! What a command leaves behind: what it has printed, and the failure that has ended it. -/
namespace CredentialGate.CommandLine

open Files

inductive Failure
  | config (reason : Config.Failure)
  | badLogLevel (level : String)
  | cannotInitialize (path : FilePath)
  | cannotOpenDatabase
  | cannotOpenAuditLog
  | cannotListen (address : String)
  | emptyToken
  | store (reason : Store.Failure)
  | noEmail
  | noPassword
  | loginFailed
  | resetLinkFailed
  | resetPasswordFailed
deriving DecidableEq, Repr

def Failure.message : Failure → String
  | config reason => reason.message
  | badLogLevel level => "Invalid log level '" ++ level ++ "'"
  | cannotInitialize path => "Failed to initialize " ++ path.text
  | cannotOpenDatabase => "Failed to open credential database"
  | cannotOpenAuditLog => "Failed to open audit log"
  | cannotListen address => "Failed to bind to " ++ address
  | emptyToken => "--token must not be empty"
  | store reason => reason.message
  | noEmail => "Failed to read email"
  | noPassword => "Failed to read password"
  | loginFailed => "Login failed"
  | resetLinkFailed => "Reset link request failed"
  | resetPasswordFailed => "Password reset failed"

/-- A webhook that takes requests, until it is interrupted. -/
structure Service where
  bind : String
  port : UInt16
  database : Store.Database
  log : Audit.Log
deriving DecidableEq, Repr

/-- The answer to a request. The state counts the audit events that have been written. -/
def Service.answer (service : Service) (stamps : Nat → Audit.Stamp) (request : Webhook.Request) :
    Nat × Tree → Webhook.Reply × Nat × Tree
  | (count, t) =>
    Webhook.answer (service.database.lookup t) (service.log.sink stamps) request (count, t)

/-- Lines that have been printed, remarks beside them, and how the command has ended. -/
structure Report where
  printed : List String
  remarks : List String
  failure? : Option Failure
  service? : Option Service
deriving DecidableEq, Repr

namespace Report

def print (line : String) : Report := ⟨[line], [], none, none⟩

def fail (reason : Failure) : Report := ⟨[], [], some reason, none⟩

end Report

/-- What is seen of a run from outside. -/
structure Outcome where
  code : Nat
  output : String
  errors : String
  service? : Option Service
deriving DecidableEq, Repr

namespace Outcome

def silent (code : Nat) : Outcome := ⟨code, "", "", none⟩

def text (lines : List String) : String := String.join (lines.map (· ++ "\n"))

/-- A failure is told last, and its code is 1. -/
def of (r : Report) : Outcome where
  code := if r.failure?.isSome then 1 else 0
  output := text r.printed
  errors := text (r.remarks ++ (r.failure?.map fun e => "Error: " ++ e.message).toList)
  service? := r.service?

end Outcome

end CredentialGate.CommandLine
