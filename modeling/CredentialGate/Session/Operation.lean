import CredentialGate.Session.Controller
import CredentialGate.Session.Slot

/-! The operations of a session, against collaborators that may answer anything. Each call to a
collaborator is noted with the session as it was during the call. Failures end here: they show as
the state and the message of the session. -/
namespace CredentialGate.Session

/-- The others that a session talks to: the primary backend, the directory and the slot. They
share a state, which each call may change. -/
structure Collaborators (σ : Type) where
  login : String → String → σ → Except BackendFailure LocalIdentity × σ
  whoami : Credential → σ → Except BackendFailure LocalIdentity × σ
  logout : Option Credential → σ → Except BackendFailure Unit × σ
  sendResetLink : String → σ → Except BackendFailure Unit × σ
  resetPassword : PasswordReset → σ → Except BackendFailure Unit × σ
  fetchUser : String → String → Option Credential → σ → Except BackendFailure RemoteIdentity × σ
  load : σ → Except SlotFailure (Option Credential) × σ
  save : Credential → σ → Except SlotFailure Unit × σ
  clear : σ → Except SlotFailure Unit × σ

inductive Call
  | login (email password : String)
  | whoami (bearer : Credential)
  | logout (bearer? : Option Credential)
  | sendResetLink (email : String)
  | resetPassword (reset : PasswordReset)
  | fetchUser (authority name : String) (bearer? : Option Credential)
  | load
  | save (credential : Credential)
  | clear
deriving DecidableEq, Repr

/-- A call and the session while it was under way. -/
structure Noted where
  call : Call
  during : Controller

structure Situation (σ : Type) where
  controller : Controller
  world : σ
  calls : List Noted

namespace Situation

def change (f : Controller → Controller) (s : Situation σ) : Situation σ :=
  { s with controller := f s.controller }

def ask (call : Call) (answer : σ → α × σ) (s : Situation σ) : α × Situation σ :=
  let (a, world) := answer s.world
  (a, { s with world := world, calls := s.calls ++ [⟨call, s.controller⟩] })

end Situation

open Situation

/-- A slot that cannot be cleared changes nothing for the session. -/
def clearSlot (others : Collaborators σ) (s : Situation σ) : Situation σ :=
  (s.ask .clear others.clear).2

/-- Asks the directory about the local identity. A failure leaves the session as it was. -/
def refresh (others : Collaborators σ) (s : Situation σ) : Bool × Situation σ :=
  match s.controller.state.local? with
  | none => (false, s)
  | some identity =>
    let bearer? := s.controller.bearer?
    let call := Call.fetchUser identity.authority identity.name bearer?
    match s.ask call (others.fetchUser identity.authority identity.name bearer?) with
    | (.ok remote, s) => (true, s.change (.transition (.authenticated identity remote)))
    | (.error _, s) => (s.controller.isAuthenticated, s)

/-- Adopts an identity, unless it has no credential, and has the directory confirm it. -/
def accept (others : Collaborators σ) (identity : LocalIdentity) (s : Situation σ) :
    Bool × Situation σ :=
  match identity.usableCredential? with
  | none =>
    let refused (c : Controller) := { c with
      bearer? := none
      message := BackendFailure.invalidTokenMessage }
    (false, s.change fun c => (refused c).transition .unauthenticated)
  | some credential =>
    let (_, s) := s.ask (.save credential) (others.save credential)
    let s := s.change fun c =>
      { c with bearer? := some credential }.transition (.localOnly identity)
    (true, (refresh others s).2)

/-- Resumes the session of a stored credential. A slot that cannot be read counts as empty. -/
def start (others : Collaborators σ) (s : Situation σ) : Situation σ :=
  let (loaded, s) := s.ask .load others.load
  match loaded.toOption.join.filter (!·.isEmpty) with
  | none =>
    s.change fun c => { c with bearer? := none, loading := false }.transition .unauthenticated
  | some credential =>
    let s := s.change fun c => { c with loading := true, resuming := true }.transition .validating
    let (answer, s) := s.ask (.whoami credential) (others.whoami credential)
    let s := s.change fun c => { c with loading := false, resuming := false }
    match answer with
    | .ok identity =>
      match accept others identity s with
      | (true, s) => s
      | (false, s) => clearSlot others s
    | .error _ =>
      (clearSlot others s).change fun c => { c with bearer? := none }.transition .unauthenticated

def login (others : Collaborators σ) (email password : String) (s : Situation σ) : Situation σ :=
  let s := s.change fun c => { c with message := "", loading := true }.transition .validating
  let (answer, s) := s.ask (.login email password) (others.login email password)
  let s := s.change fun c => { c with loading := false }
  match answer with
  | .ok identity => (accept others identity s).2
  | .error e =>
    s.change fun c =>
      { c with bearer? := none, message := e.userMessage }.transition .unauthenticated

/-- Ends the session whatever the backend says. The policy decides what a failure does to the
stored credential. -/
def logout (others : Collaborators σ) (s : Situation σ) : Situation σ :=
  let bearer? := s.controller.bearer?
  let s := s.change fun c => { c with bearer? := none }
  let (answer, s) := s.ask (.logout bearer?) (others.logout bearer?)
  let s := match answer with
    | .ok () => clearSlot others (s.change fun c => { c with message := "" })
    | .error e =>
      let s := s.change fun c => { c with message := e.userMessage }
      if s.controller.policy = LogoutPolicy.clearOnFailure then clearSlot others s else s
  s.change (.transition .unauthenticated)

def linkSentMessage : String := "an email will be sent to you"
def passwordUpdatedMessage : String := "password updated successfully"

/-- A call that only leaves a message. -/
def passThrough (call : Call) (answer : σ → Except BackendFailure Unit × σ) (success : String)
    (s : Situation σ) : Bool × Situation σ :=
  let s := s.change fun c => { c with loading := true }.publish
  match s.ask call answer with
  | (.ok (), s) => (true, s.change fun c => { c with loading := false, message := success }.publish)
  | (.error e, s) =>
    (false, s.change fun c => { c with loading := false, message := e.userMessage }.publish)

def sendResetLink (others : Collaborators σ) (email : String) : Situation σ → Bool × Situation σ :=
  passThrough (.sendResetLink email) (others.sendResetLink email) linkSentMessage

def resetPassword (others : Collaborators σ) (reset : PasswordReset) :
    Situation σ → Bool × Situation σ :=
  passThrough (.resetPassword reset) (others.resetPassword reset) passwordUpdatedMessage

inductive Operation
  | start
  | login (email password : String)
  | accept (identity : LocalIdentity)
  | refresh
  | logout
  | sendResetLink (email : String)
  | resetPassword (reset : PasswordReset)

/-- One operation, and what it returns if it returns anything. -/
def perform (others : Collaborators σ) (op : Operation) (s : Situation σ) :
    Option Bool × Situation σ :=
  match op with
  | .start => (none, start others s)
  | .login email password => (none, login others email password s)
  | .accept identity => let (b, s) := accept others identity s; (some b, s)
  | .refresh => let (b, s) := refresh others s; (some b, s)
  | .logout => (none, logout others s)
  | .sendResetLink email => let (b, s) := sendResetLink others email s; (some b, s)
  | .resetPassword reset => let (b, s) := resetPassword others reset s; (some b, s)

/-- A run of operations in their order. -/
def run (others : Collaborators σ) (ops : List Operation) (s : Situation σ) : Situation σ :=
  ops.foldl (fun s op => (perform others op s).2) s

def opening (policy : LogoutPolicy) (world : σ) : Situation σ := ⟨.initial policy, world, []⟩

end CredentialGate.Session
