import CredentialGate.Session.Slot

/-! The tree of commands, level by level, and the options of each level. An option of a level may
be given on every level below it as well. -/
namespace CredentialGate.CommandLine

open Session

inductive Level
  | top
  | serve
  | db
  | dbInit
  | user
  | userAdd
  | userRevoke
  | review
  | session
  | login
  | status
  | logout
  | resetLink
  | resetPassword
deriving DecidableEq, Repr

/-- An option by its long name. One that takes no value is a mere sign. -/
structure Choice where
  long : String
  short? : Option Char
  takesValue : Bool
  accepts : String → Bool

def Choice.text (long : String) : Choice := ⟨long, none, true, fun _ => true⟩

/-- The number of a port. It may have a sign. -/
def portOf? (s : String) : Option UInt16 :=
  let (negative, digits) := match s.toList with
    | '-' :: digits => (true, digits)
    | '+' :: digits => (false, digits)
    | digits => (false, digits)
  if digits.isEmpty ∨ !digits.all Char.isDigit then none
  else
    let n := digits.foldl (fun n c => n * 10 + (c.toNat - '0'.toNat)) 0
    if n < UInt16.size ∧ (negative → n = 0) then some n.toUInt16 else none

namespace Choice

def config : Choice := { Choice.text "config" with accepts := (· ≠ "") }
def logLevel : Choice := .text "log-level"
def logJson : Choice := ⟨"log-json", none, false, fun _ => true⟩
def port : Choice := ⟨"port", some 'p', true, fun s => (portOf? s).isSome⟩
def bind : Choice := .text "bind"
def name : Choice := .text "name"
def email : Choice := .text "email"
def authority : Choice := .text "authority"
def token : Choice := .text "token"
def password : Choice := .text "password"
def logoutPolicy : Choice :=
  ⟨"logout-policy", none, true, fun s => (LogoutPolicy.ofText? s).isSome⟩

end Choice

namespace Level

def commands : Level → List (String × Level)
  | top => [("serve", serve), ("db", db), ("user", user), ("review", review), ("session", session)]
  | db => [("init", dbInit)]
  | user => [("add", userAdd), ("revoke", userRevoke)]
  | session =>
    [("login", login), ("status", status), ("logout", logout), ("reset-link", resetLink),
      ("reset-password", resetPassword)]
  | _ => []

def ownChoices : Level → List Choice
  | serve => [.port, .bind]
  | userAdd => [.name, .email, .authority, .token]
  | userRevoke => [.email]
  | login => [.email, .password]
  | resetLink => [.email]
  | resetPassword => [.email, .token, .password]
  | _ => []

def isSession (level : Level) : Bool :=
  level == session || (session.commands.map (·.2)).contains level

def choices (level : Level) : List Choice :=
  [.config, .logLevel, .logJson] ++ (if level.isSession then [.logoutPolicy] else []) ++
    level.ownChoices

def required : Level → List Choice
  | userAdd => [.name, .email]
  | userRevoke => [.email]
  | resetLink => [.email]
  | resetPassword => [.email, .token]
  | _ => []

/-- How many words that are no options the level takes, and has to be given. -/
def words : Level → Nat
  | review => 1
  | _ => 0

end Level

end CredentialGate.CommandLine
