import CredentialGate.Session.Backend
import CredentialGate.Session.Slot

/-! The state of a client session. A user is authenticated once the primary backend has issued a
credential and the directory has confirmed the user. Whoever watches the session sees the snapshot
that was published last. -/
namespace CredentialGate.Session

inductive State
  /-- Nothing is known yet. -/
  | unresolved
  /-- A credential is being checked by the primary backend. -/
  | validating
  | unauthenticated
  /-- The primary backend has accepted the user; the directory has not confirmed it. -/
  | localOnly (identity : LocalIdentity)
  | authenticated (identity : LocalIdentity) (remote : RemoteIdentity)

inductive StateKind
  | unresolved
  | validating
  | unauthenticated
  | localOnly
  | authenticated
deriving DecidableEq, Repr

def StateKind.name : StateKind → String
  | unresolved => "unresolved"
  | validating => "validating"
  | unauthenticated => "unauthenticated"
  | localOnly => "local_only"
  | authenticated => "authenticated"

namespace State

def kind : State → StateKind
  | unresolved => .unresolved
  | validating => .validating
  | unauthenticated => .unauthenticated
  | localOnly _ => .localOnly
  | authenticated _ _ => .authenticated

def local? : State → Option LocalIdentity
  | localOnly identity | authenticated identity _ => some identity
  | _ => none

theorem isSome_local?_iff (s : State) :
    s.local?.isSome ↔ s.kind = .localOnly ∨ s.kind = .authenticated := by
  cases s <;> simp [local?, kind]

def remote? : State → Option RemoteIdentity
  | authenticated _ remote => some remote
  | _ => none

end State

structure Snapshot where
  state : StateKind
  authenticated : Bool
  loading : Bool
  message : String
  renderReady : Bool
deriving DecidableEq, Repr

def Snapshot.document (s : Snapshot) : Json.Value :=
  .object [("state", .text s.state.name), ("authenticated", .bool s.authenticated),
    ("loading", .bool s.loading), ("message", .text s.message),
    ("render_ready", .bool s.renderReady)]

/-- The last snapshot that was published, and how many were. -/
structure Channel where
  latest : Snapshot
  sent : Nat
deriving DecidableEq, Repr

/-- A session. `resuming` holds while the credential of an earlier run is being checked. -/
structure Controller where
  policy : LogoutPolicy
  state : State
  bearer? : Option Credential
  message : String
  loading : Bool
  resuming : Bool
  channel : Channel

namespace Controller

def isAuthenticated (c : Controller) : Bool := c.state.kind = .authenticated

/-- False until the session has been started, and while it resumes an earlier one. -/
def shouldRender (c : Controller) : Bool := !c.resuming && c.state.kind ≠ .unresolved

def snapshot (c : Controller) : Snapshot :=
  ⟨c.state.kind, c.isAuthenticated, c.loading, c.message, c.shouldRender⟩

def publish (c : Controller) : Controller :=
  { c with channel := ⟨c.snapshot, c.channel.sent + 1⟩ }

def transition (next : State) (c : Controller) : Controller := { c with state := next }.publish

@[simp] theorem transition_state (next : State) (c : Controller) :
    (c.transition next).state = next := rfl

@[simp] theorem transition_bearer? (next : State) (c : Controller) :
    (c.transition next).bearer? = c.bearer? := rfl

def initial (policy : LogoutPolicy) : Controller :=
  ⟨policy, .unresolved, none, "", false, false, ⟨⟨.unresolved, false, false, "", false⟩, 0⟩⟩

end Controller

end CredentialGate.Session
