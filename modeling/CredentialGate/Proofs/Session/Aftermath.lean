import CredentialGate.Proofs.Session.Publication
import CredentialGate.Session.Script

/-! What a login leaves behind. It is told by the answers to the login alone: whatever the session
was before, and whoever held it, nothing of that remains, even if the directory does not confirm the
new user and so leaves the session as it finds it. -/
namespace CredentialGate.Session

open Situation

/-- What the directory says when it is asked, in the course of a login, to confirm an identity. -/
def Collaborators.confirmation (others : Collaborators σ) (email password : String) (world : σ)
    (identity : LocalIdentity) (credential : Credential) :
    Except BackendFailure RemoteIdentity :=
  let (_, issued) := others.login email password world
  let (_, saved) := others.save credential issued
  (others.fetchUser identity.authority identity.name (some credential) saved).1

/-- The primary backend answers a login alike, and so does the directory if it is asked. -/
structure LoginAlike (others : Collaborators σ) (other : Collaborators τ) (email password : String)
    (x : σ) (y : τ) : Prop where
  answer : (others.login email password x).1 = (other.login email password y).1
  confirmation : ∀ identity credential, (others.login email password x).1 = .ok identity →
    identity.usableCredential? = some credential →
    others.confirmation email password x identity credential =
      other.confirmation email password y identity credential

/-- What is left by a login, and what was asked on the way. -/
structure Aftermath where
  state : State
  bearer? : Option Credential
  message : String
  asked : List Call

/-- A login that has been answered, and what the directory says if it is asked to confirm. -/
def aftermath (email password : String) (answer : Except BackendFailure LocalIdentity)
    (confirm : LocalIdentity → Credential → Except BackendFailure RemoteIdentity) : Aftermath :=
  match answer with
  | .error e => ⟨.unauthenticated, none, e.userMessage, [.login email password]⟩
  | .ok identity =>
    match identity.usableCredential? with
    | none =>
      ⟨.unauthenticated, none, BackendFailure.invalidTokenMessage, [.login email password]⟩
    | some credential =>
      ⟨.ofConfirmation identity (confirm identity credential).toOption, some credential, "",
        [.login email password, .save credential,
          .fetchUser identity.authority identity.name (some credential)]⟩

/-- What a login leaves by the answers of these collaborators. -/
def Collaborators.aftermath (others : Collaborators σ) (email password : String) (world : σ) :
    Aftermath :=
  Session.aftermath email password (others.login email password world).1
    (others.confirmation email password world)

section

variable {others : Collaborators σ} {other : Collaborators τ} {email password : String}

theorem LoginAlike.aftermath_eq {x : σ} {y : τ}
    (alike : LoginAlike others other email password x y) :
    others.aftermath email password x = other.aftermath email password y := by
  have confirmed := alike.confirmation
  simp only [Collaborators.aftermath, ← alike.answer]
  cases answer : (others.login email password x).1 with
  | error e => rfl
  | ok identity =>
    cases usable : identity.usableCredential? with
    | none => simp only [aftermath, usable]
    | some credential => simp only [aftermath, usable, confirmed identity credential answer usable]

/-- A login goes by what it is answered, and by nothing that the session has been. -/
theorem login_aftermath (others : Collaborators σ) (email password : String) (s : Situation σ) :
    let t := (perform others (.login email password) s).2
    let left := others.aftermath email password s.world
    t.controller.state = left.state ∧ t.controller.bearer? = left.bearer? ∧
      t.controller.message = left.message ∧
      t.calls.map (·.call) = s.calls.map (·.call) ++ left.asked := by
  rcases answered : others.login email password s.world with ⟨e | identity, issued⟩
  · simp only [perform, login, ask, change, answered, Collaborators.aftermath, aftermath,
      List.map_append]
    exact ⟨rfl, rfl, rfl, rfl⟩
  cases usable : identity.usableCredential? with
  | none =>
    simp only [perform, login, ask, change, answered, accept, usable, Collaborators.aftermath,
      aftermath, List.map_append]
    exact ⟨rfl, rfl, rfl, rfl⟩
  | some credential =>
    rcases kept : others.save credential issued with ⟨saved, stored⟩
    rcases asked : others.fetchUser identity.authority identity.name (some credential) stored with
      ⟨e | remote, final⟩
    all_goals
      simp only [perform, login, ask, change, answered, accept, usable, kept, refresh,
        Controller.transition_state, Controller.transition_bearer?, State.local?, asked,
        Collaborators.aftermath, aftermath, Collaborators.confirmation, List.map_append,
        List.append_assoc]
      exact ⟨rfl, trivial, rfl, rfl⟩

/-- A session at rest shows its state and its message, and nothing else that it has been through. -/
theorem AtRest.latest_eq {c : Controller} (rest : AtRest c) :
    c.channel.latest =
      ⟨c.state.kind, c.state.kind = .authenticated, false, c.message,
        c.state.kind ≠ .unresolved⟩ := by
  rw [rest.shown, Controller.snapshot, Controller.isAuthenticated, Controller.shouldRender,
    rest.idle, rest.done]
  simp

theorem login_atRest (others : Collaborators σ) (past : List Operation) (policy : LogoutPolicy)
    (world : σ) (email password : String) :
    AtRest (perform others (.login email password)
      (run others past (opening policy world))).2.controller := by
  obtain ⟨⟨rest, -⟩, -⟩ := run_invariant others
    (fun _ _ _ _ _ held step => Begun.step held step) past [] (opening policy world)
    (.opening policy) (by simp [opening])
  obtain ⟨exchanges, -, -, step⟩ := perform_step others (.login email password)
    (run others past (opening policy world))
  exact (step.settling rest).rest

end

/-- Two sessions with any pasts, of any policies and with any collaborators, cannot be told apart
after a login that is answered alike: they are in the same state with the same bearer and message,
show their watchers the same, and have asked the same on the way. And all of that is of this login:
an identity that it was issued, the credential of this identity, and a confirmation that the
directory has given in the course of it. -/
theorem login_forgets_past (others : Collaborators σ) (other : Collaborators τ)
    (policy rule : LogoutPolicy) (x : σ) (y : τ) (past earlier : List Operation)
    (email password : String) :
    let s := run others past (opening policy x)
    let t := run other earlier (opening rule y)
    LoginAlike others other email password s.world t.world →
    let s' := (perform others (.login email password) s).2
    let t' := (perform other (.login email password) t).2
    let left := others.aftermath email password s.world
    s'.controller.state = t'.controller.state ∧ s'.controller.bearer? = t'.controller.bearer? ∧
    s'.controller.message = t'.controller.message ∧
    s'.controller.loading = t'.controller.loading ∧
    s'.controller.channel.latest = t'.controller.channel.latest ∧
    (s'.calls.map (·.call) = s.calls.map (·.call) ++ left.asked ∧
      t'.calls.map (·.call) = t.calls.map (·.call) ++ left.asked) ∧
    s'.controller.state = left.state ∧ s'.controller.bearer? = left.bearer? ∧
    s'.controller.message = left.message := by
  intro s t alike s' t' left
  obtain ⟨state, bearer, message, calls⟩ := login_aftermath others email password s
  obtain ⟨also, borne, told, asked⟩ := login_aftermath other email password t
  rw [← alike.aftermath_eq] at also borne told asked
  have rest := login_atRest others past policy x email password
  have rested := login_atRest other earlier rule y email password
  have same : s'.controller.state = t'.controller.state := state.trans also.symm
  have said : s'.controller.message = t'.controller.message := message.trans told.symm
  refine ⟨same, bearer.trans borne.symm, said, rest.idle.trans rested.idle.symm, ?_,
    ⟨calls, asked⟩, state, bearer, message⟩
  rw [rest.latest_eq, rested.latest_eq, ← same, ← said]

/-- Where a confirmed user has gone before, the next one is left unconfirmed, as in a session of
another policy, over a slot that refuses to save, in which nobody has. -/
theorem unconfirmed_successor_alone :
    let backends : Collaborators Stage := { Stage.collaborators with
      login := fun email _ stage => (.ok ⟨email, "", "lab", some ⟨email⟩, []⟩, stage)
      fetchUser := fun _ name _ stage =>
        (if name = "alice" then .ok ⟨.text name⟩ else .error (.unreachable ""), stage) }
    let s := run backends [.login "alice" "first"]
      (opening .retain ⟨.silent, .memory (some ⟨"old"⟩), .empty⟩)
    let t := run backends []
      (opening .clearOnFailure ⟨{ Script.silent with refuseSave := true }, .memory none, .empty⟩)
    let s' := (perform backends (.login "bob" "second") s).2
    let t' := (perform backends (.login "bob" "second") t).2
    s.controller.state.kind = .authenticated ∧ s.controller.bearer? = some ⟨"alice"⟩ ∧
      LoginAlike backends backends "bob" "second" s.world t.world ∧
      s'.controller.state = t'.controller.state ∧ s'.controller.state.kind = .localOnly ∧
      s'.controller.bearer? = some ⟨"bob"⟩ ∧ t'.controller.bearer? = some ⟨"bob"⟩ := by
  intro backends s t s' t'
  have alike : LoginAlike backends backends "bob" "second" s.world t.world :=
    ⟨rfl, fun _ _ _ _ => rfl⟩
  have forgotten := login_forgets_past backends backends .retain .clearOnFailure
    ⟨.silent, .memory (some ⟨"old"⟩), .empty⟩
    ⟨{ Script.silent with refuseSave := true }, .memory none, .empty⟩ [.login "alice" "first"] []
    "bob" "second" alike
  exact ⟨rfl, rfl, alike, forgotten.1, rfl, rfl, forgotten.2.1.symm.trans rfl⟩

end CredentialGate.Session
