import CredentialGate.Proofs.Http.Primary
import CredentialGate.Proofs.Session.Slot
import CredentialGate.Proofs.Session.StoredCredential
import CredentialGate.Session.Script

/-! A login from the wire to the session. The last response of the primary backend decides it: a
success that carries an identity with a credential opens the session, and nothing else does. -/
namespace CredentialGate.Session

open Http Setting

/-- The login has opened the session of an identity. Its credential is kept, and the directory has
been asked once, about this user. -/
structure Admitted (email password : String) (identity : LocalIdentity) (c : Credential)
    (confirmation : Except BackendFailure RemoteIdentity) (s t : Situation (Setting σ)) :
    Prop where
  state : t.controller.state =
    match confirmation with
    | .ok remote => .authenticated identity remote
    | .error _ => .localOnly identity
  bearer : t.controller.bearer? = some c
  message : t.controller.message = ""
  stored : t.world.slot.Keeps t.world.tree c
  calls : t.calls.map (·.call) = s.calls.map (·.call) ++
    [.login email password, .save c, .fetchUser identity.authority identity.name (some c)]

/-- The login has opened no session. Nobody but the primary backend has been asked, and the slot is
as it was. -/
structure Refused (email password message : String) (s t : Situation (Setting σ)) : Prop where
  state : t.controller.state = .unauthenticated
  bearer : t.controller.bearer? = none
  message : t.controller.message = message
  slot : t.world.slot = s.world.slot
  tree : t.world.tree = s.world.tree
  calls : t.calls.map (·.call) = s.calls.map (·.call) ++ [.login email password]

section

variable {others : Collaborators σ} {s : Situation (Setting σ)} {email password : String}
  {reached : σ}

theorem Told.login {given answer : Except BackendFailure LocalIdentity} {world final : Setting σ}
    {replies : List Reply}
    (answered : others.login email password world.network = (answer, reached))
    (told : Told others.inSetting world (.login email password given :: replies) final) :
    given = answer ∧ Told others.inSetting { world with network := reached } replies final := by
  have said : others.inSetting.answer (.login email password) world =
      (.login email password answer, { world with network := reached }) := by
    simp [Collaborators.answer, Collaborators.inSetting, overNetwork, answered]
  obtain ⟨same, later⟩ := told
  simp only [Reply.call, said] at same later
  exact ⟨(Reply.login.inj same).2.2.symm, later⟩

theorem Told.confirms {authority name : String} {bearer? : Option Credential}
    {answer : Except BackendFailure RemoteIdentity} {world final : Setting σ}
    (told : Told others.inSetting world [.fetchUser authority name bearer? answer] final) :
    (others.fetchUser authority name bearer? world.network).1 = answer ∧
      final.slot = world.slot ∧ final.tree = world.tree := by
  obtain ⟨same, last⟩ := told
  cases last.done
  exact ⟨(Reply.fetchUser.inj same).2.2.2, rfl, rfl⟩

/-- The directory is asked once about an identity that it has not confirmed. -/
theorem Refreshing.asks {c after : Controller} {exchanges : List Exchange}
    {identity : LocalIdentity} {world final : Setting σ}
    (refreshing : Refreshing c exchanges after) (known : c.state.local? = some identity)
    (told : Told others.inSetting world (exchanges.map (·.reply)) final) :
    exchanges.map (·.reply.call) = [.fetchUser identity.authority identity.name c.bearer?] ∧
      after = (match (others.fetchUser identity.authority identity.name c.bearer?
          world.network).1 with
        | .ok remote => c.transition (.authenticated identity remote)
        | .error _ => c) ∧
      final.slot = world.slot ∧ final.tree = world.tree := by
  cases refreshing with
  | unheld vacant => simp [known] at vacant
  | confirmed held | unconfirmed held =>
    cases held.symm.trans known
    obtain ⟨answered, kept⟩ := Told.confirms told
    exact ⟨rfl, by rw [answered], kept⟩

theorem login_denied {e : BackendFailure}
    (answered : others.login email password s.world.network = (.error e, reached)) :
    Refused email password e.userMessage s
      (perform others.inSetting (.login email password) s).2 := by
  obtain ⟨exchanges, told, noted, step⟩ :=
    perform_answered others.inSetting (.login email password) s
  generalize (perform others.inSetting (.login email password) s).2 = t at told noted step
  obtain ⟨after, world, calls⟩ := t
  cases step with
  | denied =>
    obtain ⟨same, later⟩ := Told.login answered told
    cases same
    cases later.done
    exact ⟨rfl, rfl, rfl, rfl, rfl, by rw [noted, List.map_append]; rfl⟩
  | issued accepting =>
    obtain ⟨same, -⟩ := Told.login answered told
    cases same

/-- An identity that is issued is accepted, or not, by what comes after the call. -/
theorem login_issued {identity : LocalIdentity}
    (answered : others.login email password s.world.network = (.ok identity, reached)) :
    ∃ (after : Controller) (world : Setting σ) (calls : List Noted) (exchanges : List Exchange),
      (perform others.inSetting (.login email password) s).2 = ⟨after, world, calls⟩ ∧
      Told others.inSetting { s.world with network := reached } (exchanges.map (·.reply)) world ∧
      calls.map (·.call) =
        s.calls.map (·.call) ++ .login email password :: exchanges.map (·.reply.call) ∧
      Accepting identity s.controller.tried exchanges after := by
  obtain ⟨exchanges, told, noted, step⟩ :=
    perform_answered others.inSetting (.login email password) s
  generalize (perform others.inSetting (.login email password) s).2 = t at told noted step
  obtain ⟨after, world, calls⟩ := t
  cases step with
  | denied =>
    obtain ⟨same, -⟩ := Told.login answered told
    cases same
  | @issued _ _ _ _ exchanges accepting =>
    obtain ⟨same, later⟩ := Told.login answered told
    cases same
    have called : calls = _ := noted
    refine ⟨after, world, calls, exchanges, rfl, later, ?_, accepting⟩
    rw [called, List.map_append, List.map_map]
    rfl

/-- An identity without a credential is as good as none. -/
theorem login_unusable {identity : LocalIdentity}
    (answered : others.login email password s.world.network = (.ok identity, reached))
    (unusable : identity.usableCredential? = none) :
    Refused email password BackendFailure.invalidTokenMessage s
      (perform others.inSetting (.login email password) s).2 := by
  obtain ⟨after, world, calls, exchanges, same, told, called, accepting⟩ := login_issued answered
  rw [same]
  cases accepting with
  | refused =>
    cases told.done
    exact ⟨rfl, rfl, rfl, rfl, rfl, called⟩
  | adopted usable => simp [unusable] at usable

theorem login_admitted {identity : LocalIdentity} {c : Credential}
    (answered : others.login email password s.world.network = (.ok identity, reached))
    (usable : identity.usableCredential? = some c)
    (saves : (s.world.slot.save c s.world.tree).1 = .ok ()) :
    Admitted email password identity c
      (others.fetchUser identity.authority identity.name (some c) reached).1 s
      (perform others.inSetting (.login email password) s).2 := by
  obtain ⟨after, world, calls, exchanges, same, told, called, accepting⟩ := login_issued answered
  rw [same]
  cases accepting with
  | refused unusable => simp [unusable] at usable
  | adopted held refreshing =>
    cases usable.symm.trans held
    obtain ⟨asked, rfl, slot, tree⟩ := refreshing.asks rfl told.saves
    have stored : world.slot.Keeps world.tree c := by
      rw [slot, tree]
      exact Slot.save_keeps saves
    have calls_eq : calls.map (·.call) = s.calls.map (·.call) ++ [.login email password, .save c,
        .fetchUser identity.authority identity.name (some c)] := by
      rw [called, List.map_cons, asked]
      rfl
    dsimp only [Controller.transition_bearer?]
    cases (others.fetchUser identity.authority identity.name (some c) reached).1 with
    | ok remote => exact ⟨rfl, rfl, rfl, stored, calls_eq⟩
    | error e => exact ⟨rfl, rfl, rfl, stored, calls_eq⟩

end

/-- The collaborators of a session at work are of this kind. -/
theorem collaborators_eq {b : Backends} {net : Network σ} {others : Collaborators σ}
    (asked : others.fetchUser = b.directory.fetchUser net) :
    b.collaborators net = (b.primary.serving net others).inSetting := by
  simp only [Backends.collaborators, Collaborators.inSetting, Primary.serving, asked]

/-- What a login does to a session, whatever has gone before, once a response of the primary backend
has arrived. A success with an identity that has a credential opens the session of this identity;
any other success is an invalid token. A response that is no success opens nothing, not even with
the body of an identity, and the user is told its message. The directory may be any; with the one
that is configured, this is the login of the program. -/
theorem login_follows_response {p : Primary} {net : Network σ} {email password : String}
    {request : Request} {response : Response} {s : Situation (Setting σ)} {reached : σ}
    (built : p.loginRequest email password = .ok request)
    (answered : followUp net request greatestRedirects s.world.network = (.ok response, reached))
    (whole : response.isComplete = true) (others : Collaborators σ) :
    let t := (perform (p.serving net others).inSetting (.login email password) s).2
    (200 ≤ response.status ∧ response.status < 300 →
      (∀ identity c, LocalIdentity.read response.body = .ok identity →
        identity.credential? = some c → c.token ≠ "" →
        (s.world.slot.save c s.world.tree).1 = .ok () →
        Admitted email password identity c
          (others.fetchUser identity.authority identity.name (some c) reached).1 s t) ∧
      ((∀ identity, LocalIdentity.read response.body = .ok identity →
        ∀ c, identity.credential? = some c → c.token = "") →
        Refused email password "invalid token" s t)) ∧
    (¬ (200 ≤ response.status ∧ response.status < 300) →
      ∃ message, Refused email password message s t ∧
        message = (Json.whole Response.complaintReader response.body).toOption.getD "" ∧
        ∀ v, Json.Holds response.body v → message = Response.told v) ∧
    ∀ directory : Directory, others.fetchUser = directory.fetchUser net →
      t = (perform (Backends.collaborators ⟨p, directory⟩ net) (.login email password) s).2 := by
  intro t
  have login : (p.serving net others).login email password s.world.network =
      (loginAnswer response, reached) := Primary.login_answered built answered whole
  have success : response.isSuccess = true ↔ 200 ≤ response.status ∧ response.status < 300 := by
    simp [Response.isSuccess]
  rw [← success]
  refine ⟨fun accepted => ⟨fun identity c read held present saves => ?_, fun unissued => ?_⟩,
    fun failed => ?_, fun directory asked => ?_⟩
  · have usable : identity.usableCredential? = some c := by
      simp [LocalIdentity.usableCredential?, held, Credential.isEmpty, present]
    rw [loginAnswer, if_pos accepted, read] at login
    exact login_admitted login usable saves
  · rw [loginAnswer, if_pos accepted] at login
    -- The backend refuses what it cannot read, the session an identity without a credential.
    cases read : LocalIdentity.read response.body with
    | error e =>
      rw [read] at login
      exact login_denied login
    | ok identity =>
      have unusable : identity.usableCredential? = none := by
        simpa [LocalIdentity.usableCredential?, Option.filter_eq_none_iff, Credential.isEmpty]
          using unissued identity read
      rw [read] at login
      exact login_unusable login unusable
  · rw [loginAnswer, if_neg failed] at login
    refine ⟨response.complaint, login_denied login, ?_,
      fun v holds => Response.complaint_told whole holds⟩
    rw [Response.complaint]
    cases Json.whole Response.complaintReader response.body with
    | ok message => simp [whole, Except.toOption]
    | error e => rfl
  · have same : Backends.collaborators ⟨p, directory⟩ net = (p.serving net others).inSetting :=
      collaborators_eq asked
    rw [same]

/-- The body of an identity opens a session with a success, and none with a failure. -/
theorem issued_credential_held :
    let p : Primary := ⟨"http://a", ⟨"/login", "", "", "", ""⟩⟩
    let body := Text.utf8 "\x7b\"api_token\":\"abc\"\x7d"
    let net (status : Nat) : Network Stage :=
      ⟨fun _ stage => (some ⟨status, none, body, true⟩, stage)⟩
    let s : Situation (Setting Stage) :=
      opening .retain ⟨⟨.silent, .memory none, .empty⟩, .memory none, .empty⟩
    let t (status : Nat) :=
      (perform (p.serving (net status) Stage.collaborators).inSetting (.login "alice" "secret") s).2
    (∃ request, p.loginRequest "alice" "secret" = .ok request ∧
      ∀ status ∈ [200, 500], followUp (net status) request greatestRedirects s.world.network =
        (.ok ⟨status, none, body, true⟩, s.world.network)) ∧
      (t 200).controller.state.kind = .localOnly ∧
      (t 200).controller.bearer? = some ⟨"abc"⟩ ∧ stored? (t 200).world = some ⟨"abc"⟩ ∧
      (t 500).controller.state.kind = .unauthenticated ∧ (t 500).controller.bearer? = none := by
  intro p body net s t
  have sendable : (p.loginRequest "alice" "secret").toOption.isSome = true := by decide +kernel
  obtain ⟨request, built⟩ : ∃ request, p.loginRequest "alice" "secret" = .ok request := by
    cases built : p.loginRequest "alice" "secret" with
    | error e => simp [built, Except.toOption] at sendable
    | ok request => exact ⟨request, rfl⟩
  have answered : ∀ status ∈ [200, 500],
      followUp (net status) request greatestRedirects s.world.network =
        (.ok ⟨status, none, body, true⟩, s.world.network) := by
    intro status listed
    have final : status ∉ redirectStatuses := by
      revert status
      decide
    rw [followUp]
    simp [net, redirection?, final]
  have decoded : (LocalIdentity.read body).toOption.map (·.credential?) = some (some ⟨"abc"⟩) := by
    decide +kernel
  obtain ⟨identity, read⟩ : ∃ identity, LocalIdentity.read body = .ok identity := by
    cases read : LocalIdentity.read body with
    | error e => simp [read, Except.toOption] at decoded
    | ok identity => exact ⟨identity, rfl⟩
  have held : identity.credential? = some ⟨"abc"⟩ := by
    simpa [read, Except.toOption] using decoded
  have success := login_follows_response built (answered 200 (by simp)) rfl Stage.collaborators
  have failure := login_follows_response built (answered 500 (by simp)) rfl Stage.collaborators
  have admitted : Admitted "alice" "secret" identity ⟨"abc"⟩ _ s (t 200) :=
    (success.1 (by decide)).1 identity ⟨"abc"⟩ read held (by decide) rfl
  obtain ⟨message, refused, -⟩ : ∃ message, Refused "alice" "secret" message s (t 500) ∧ _ :=
    failure.2.1 (by decide)
  refine ⟨⟨request, built, answered⟩, ?_, admitted.bearer, ?_, ?_, refused.bearer⟩
  · rw [admitted.state]
    rfl
  · rw [stored?, admitted.stored.load_eq (by decide) (by decide)]
    rfl
  · rw [refused.state]
    rfl

end CredentialGate.Session
