import CredentialGate.Session.Operation

/-! What an operation may do to a session, by the answers it is given. The answers are put down by
collaborators that are otherwise the same. -/
namespace CredentialGate.Session

open Situation

/-- A call and what came back. -/
inductive Reply
  | login (email password : String) (answer : Except BackendFailure LocalIdentity)
  | whoami (bearer : Credential) (answer : Except BackendFailure LocalIdentity)
  | logout (bearer? : Option Credential) (answer : Except BackendFailure Unit)
  | sendResetLink (email : String) (answer : Except BackendFailure Unit)
  | resetPassword (reset : PasswordReset) (answer : Except BackendFailure Unit)
  | fetchUser (authority name : String) (bearer? : Option Credential)
      (answer : Except BackendFailure RemoteIdentity)
  | load (answer : Except SlotFailure (Option Credential))
  | save (credential : Credential) (answer : Except SlotFailure Unit)
  | clear (answer : Except SlotFailure Unit)

def Reply.call : Reply → Call
  | login email password _ => .login email password
  | whoami bearer _ => .whoami bearer
  | logout bearer? _ => .logout bearer?
  | sendResetLink email _ => .sendResetLink email
  | resetPassword reset _ => .resetPassword reset
  | fetchUser authority name bearer? _ => .fetchUser authority name bearer?
  | load _ => .load
  | save credential _ => .save credential
  | clear _ => .clear

/-- The credential that a call has the primary backend check. -/
def Call.presented? : Call → Option Credential
  | .whoami bearer => some bearer
  | _ => none

/-- The call leaves the program, for the primary backend or for the directory. -/
def Call.isOutgoing : Call → Bool
  | .load | .save _ | .clear => false
  | _ => true

/-- A call that has been answered, and the session while it was under way. -/
structure Exchange where
  reply : Reply
  during : Controller

def Exchange.noted (e : Exchange) : Noted := ⟨e.reply.call, e.during⟩

/-- The same answer, put down behind those before it. -/
def noting (reply : α → Reply) (answer : σ → α × σ) (s : σ × List Reply) :
    α × (σ × List Reply) :=
  let (a, world) := answer s.1
  (a, (world, s.2 ++ [reply a]))

/-- The same collaborators, with a record of what they answered. -/
def Collaborators.recorded (others : Collaborators σ) : Collaborators (σ × List Reply) where
  login email password := noting (.login email password) (others.login email password)
  whoami bearer := noting (.whoami bearer) (others.whoami bearer)
  logout bearer? := noting (.logout bearer?) (others.logout bearer?)
  sendResetLink email := noting (.sendResetLink email) (others.sendResetLink email)
  resetPassword reset := noting (.resetPassword reset) (others.resetPassword reset)
  fetchUser authority name bearer? :=
    noting (.fetchUser authority name bearer?) (others.fetchUser authority name bearer?)
  load := noting .load others.load
  save credential := noting (.save credential) (others.save credential)
  clear := noting .clear others.clear

namespace Controller

/-- The session while the credential of an earlier run is being checked. -/
def checking (c : Controller) : Controller :=
  { c with loading := true, resuming := true }.transition .validating

def checked (c : Controller) : Controller := { c.checking with loading := false, resuming := false }

/-- The session while a login is under way. -/
def trying (c : Controller) : Controller :=
  { c with message := "", loading := true }.transition .validating

def tried (c : Controller) : Controller := { c.trying with loading := false }

/-- The session while a call is under way that only leaves a message. -/
def waiting (c : Controller) : Controller := { c with loading := true }.publish

def told (c : Controller) (success : String) : Except BackendFailure Unit → Controller
  | .ok () => { c.waiting with loading := false, message := success }.publish
  | .error e => { c.waiting with loading := false, message := e.userMessage }.publish

/-- The session once it has given up its credential. -/
def leaving (c : Controller) : Controller := { c with bearer? := none }

end Controller

/-- What asking the directory does to a session. -/
inductive Refreshing : Controller → List Exchange → Controller → Prop
  | unheld {c : Controller} : c.state.local? = none → Refreshing c [] c
  | confirmed {c : Controller} {identity : LocalIdentity} {remote : RemoteIdentity} :
      c.state.local? = some identity →
      Refreshing c [⟨.fetchUser identity.authority identity.name c.bearer? (.ok remote), c⟩]
        (c.transition (.authenticated identity remote))
  | unconfirmed {c : Controller} {identity : LocalIdentity} {e : BackendFailure} :
      c.state.local? = some identity →
      Refreshing c [⟨.fetchUser identity.authority identity.name c.bearer? (.error e), c⟩] c

/-- What an identity that has been issued does to a session. -/
inductive Accepting (identity : LocalIdentity) : Controller → List Exchange → Controller → Prop
  | refused {c : Controller} : identity.usableCredential? = none →
      Accepting identity c []
        ({ c with
          bearer? := none
          message := BackendFailure.invalidTokenMessage }.transition .unauthenticated)
  | adopted {c after : Controller} {credential : Credential} {saved : Except SlotFailure Unit}
      {exchanges : List Exchange} : identity.usableCredential? = some credential →
      Refreshing ({ c with bearer? := some credential }.transition (.localOnly identity)) exchanges
        after →
      Accepting identity c (⟨.save credential saved, c⟩ :: exchanges) after

/-- The credential that a slot is found to hold. -/
def storedCredential? (loaded : Except SlotFailure (Option Credential)) : Option Credential :=
  loaded.toOption.join.filter (!·.isEmpty)

/-- What an operation does to a session, and what it is answered on the way. -/
inductive Step (c : Controller) : Operation → List Exchange → Controller → Prop
  /-- No credential is stored. -/
  | fresh {loaded : Except SlotFailure (Option Credential)} : storedCredential? loaded = none →
      Step c .start [⟨.load loaded, c⟩]
        ({ c with bearer? := none, loading := false }.transition .unauthenticated)
  /-- The stored credential is not accepted. -/
  | expired {loaded : Except SlotFailure (Option Credential)} {credential : Credential}
      {e : BackendFailure} {cleared : Except SlotFailure Unit} :
      storedCredential? loaded = some credential →
      Step c .start
        [⟨.load loaded, c⟩, ⟨.whoami credential (.error e), c.checking⟩,
          ⟨.clear cleared, c.checked⟩]
        ({ c.checked with bearer? := none }.transition .unauthenticated)
  /-- The identity of the stored credential has none itself. -/
  | dismissed {after : Controller} {loaded : Except SlotFailure (Option Credential)}
      {credential : Credential} {identity : LocalIdentity} {cleared : Except SlotFailure Unit} :
      storedCredential? loaded = some credential → Accepting identity c.checked [] after →
      Step c .start
        [⟨.load loaded, c⟩, ⟨.whoami credential (.ok identity), c.checking⟩,
          ⟨.clear cleared, after⟩]
        after
  | resumed {after : Controller} {loaded : Except SlotFailure (Option Credential)}
      {credential : Credential} {identity : LocalIdentity} {exchanges : List Exchange} :
      storedCredential? loaded = some credential → identity.usableCredential?.isSome →
      Accepting identity c.checked exchanges after →
      Step c .start
        (⟨.load loaded, c⟩ :: ⟨.whoami credential (.ok identity), c.checking⟩ :: exchanges) after
  | denied {email password : String} {e : BackendFailure} :
      Step c (.login email password) [⟨.login email password (.error e), c.trying⟩]
        ({ c.tried with bearer? := none, message := e.userMessage }.transition .unauthenticated)
  | issued {after : Controller} {email password : String} {identity : LocalIdentity}
      {exchanges : List Exchange} : Accepting identity c.tried exchanges after →
      Step c (.login email password)
        (⟨.login email password (.ok identity), c.trying⟩ :: exchanges) after
  | accepted {after : Controller} {identity : LocalIdentity} {exchanges : List Exchange} :
      Accepting identity c exchanges after → Step c (.accept identity) exchanges after
  | refreshed {after : Controller} {exchanges : List Exchange} :
      Refreshing c exchanges after → Step c .refresh exchanges after
  | ended {cleared : Except SlotFailure Unit} :
      Step c .logout
        [⟨.logout c.bearer? (.ok ()), c.leaving⟩,
          ⟨.clear cleared, { c.leaving with message := "" }⟩]
        ({ c.leaving with message := "" }.transition .unauthenticated)
  /-- The backend does not end the session. -/
  | dropped {e : BackendFailure} {exchanges : List Exchange} :
      (if c.policy = .clearOnFailure then
        ∃ cleared, exchanges = [⟨.clear cleared, { c.leaving with message := e.userMessage }⟩]
        else exchanges = []) →
      Step c .logout (⟨.logout c.bearer? (.error e), c.leaving⟩ :: exchanges)
        ({ c.leaving with message := e.userMessage }.transition .unauthenticated)
  | linkAsked {email : String} {answer : Except BackendFailure Unit} :
      Step c (.sendResetLink email) [⟨.sendResetLink email answer, c.waiting⟩]
        (c.told linkSentMessage answer)
  | passwordReset {reset : PasswordReset} {answer : Except BackendFailure Unit} :
      Step c (.resetPassword reset) [⟨.resetPassword reset answer, c.waiting⟩]
        (c.told passwordUpdatedMessage answer)

/-- A logout that fails asks for nothing more than that the slot be cleared. -/
theorem only_clears {policy : LogoutPolicy} {d : Controller} {exchanges : List Exchange}
    (rest : if policy = .clearOnFailure then ∃ cleared, exchanges = [⟨.clear cleared, d⟩]
      else exchanges = []) : ∀ e ∈ exchanges, ∃ cleared, e = ⟨.clear cleared, d⟩ := by
  split at rest
  · obtain ⟨cleared, rfl⟩ := rest
    exact List.forall_mem_singleton.2 ⟨cleared, rfl⟩
  · simp [rest]

/-- Between the two situations a session has come from one state to the other, by exchanges that
have been noted and whose answers have been put down. -/
def Recorded (step : Controller → List Exchange → Controller → Prop)
    (s t : Situation (σ × List Reply)) : Prop :=
  ∃ exchanges : List Exchange, t.world.2 = s.world.2 ++ exchanges.map (·.reply) ∧
    t.calls = s.calls ++ exchanges.map (·.noted) ∧ step s.controller exchanges t.controller

variable (others : Collaborators σ) (s : Situation (σ × List Reply))

theorem Accepting.nobody_asked {identity : LocalIdentity} {c after : Controller}
    {exchanges : List Exchange} (accepting : Accepting identity c exchanges after)
    (unusable : identity.usableCredential? = none) : exchanges = [] := by
  cases accepting with
  | refused => rfl
  | adopted usable => simp [unusable] at usable

theorem noting_eq {answer : σ → α × σ} {noted : List Reply} {world after : σ} {a : α}
    (reply : α → Reply) (answered : answer world = (a, after)) :
    noting reply answer (world, noted) = (a, (after, noted ++ [reply a])) := by
  simp only [noting, answered]

theorem refresh_recorded : Recorded Refreshing s (refresh others.recorded s).2 := by
  cases held : s.controller.state.local? with
  | none =>
    simp only [refresh, held]
    exact ⟨[], (List.append_nil _).symm, (List.append_nil _).symm, .unheld held⟩
  | some identity =>
    rcases answered : others.fetchUser identity.authority identity.name s.controller.bearer?
      s.world.1 with ⟨e | remote, world⟩
    all_goals
      simp only [refresh, held, ask, Collaborators.recorded, noting, answered, change]
    · exact ⟨[⟨_, s.controller⟩], rfl, rfl, .unconfirmed held⟩
    · exact ⟨[⟨_, s.controller⟩], rfl, rfl, .confirmed held⟩

theorem accept_recorded (identity : LocalIdentity) :
    Recorded (Accepting identity) s (accept others.recorded identity s).2 := by
  unfold accept
  cases usable : identity.usableCredential? with
  | none => exact ⟨[], (List.append_nil _).symm, (List.append_nil _).symm, .refused usable⟩
  | some credential =>
    obtain ⟨exchanges, put, noted, refreshing⟩ := refresh_recorded others
      ((s.ask (.save credential) (others.recorded.save credential)).2.change fun c =>
        { c with bearer? := some credential }.transition (.localOnly identity))
    exact ⟨⟨.save credential _, s.controller⟩ :: exchanges, put.trans (List.append_assoc ..),
      noted.trans (List.append_assoc ..), .adopted usable refreshing⟩

theorem accept_taken (identity : LocalIdentity) :
    (accept others.recorded identity s).1 = identity.usableCredential?.isSome := by
  unfold accept
  cases identity.usableCredential? <;> rfl

/-- A stored credential that the backend accepts leads to the adoption of its identity. -/
theorem start_resuming {others : Collaborators σ} {s : Situation σ}
    {loaded : Except SlotFailure (Option Credential)} {credential : Credential}
    {identity : LocalIdentity} {opened asked : σ} (read : others.load s.world = (loaded, opened))
    (stored : storedCredential? loaded = some credential)
    (answered : others.whoami credential opened = (.ok identity, asked)) :
    start others s =
      match accept others identity ⟨s.controller.checked, asked,
          s.calls ++ [⟨.load, s.controller⟩] ++ [⟨.whoami credential, s.controller.checking⟩]⟩ with
      | (true, s) => s
      | (false, s) => clearSlot others s := by
  simp only [storedCredential?] at stored
  simp only [start, ask, change, read, stored, answered]
  rfl

theorem start_recorded : Recorded (fun c => Step c .start) s (start others.recorded s) := by
  rcases read : others.load s.world.1 with ⟨loaded, world⟩
  cases stored : storedCredential? loaded with
  | none =>
    have empty := stored
    simp only [storedCredential?] at empty
    simp only [start, ask, Collaborators.recorded, noting, change, read, empty]
    exact ⟨[⟨_, s.controller⟩], rfl, rfl, .fresh stored⟩
  | some credential =>
    rcases answered : others.whoami credential world with ⟨e | identity, world⟩
    · rcases emptied : others.clear world with ⟨cleared, world⟩
      have held := stored
      simp only [storedCredential?] at held
      simp only [start, ask, Collaborators.recorded, noting, change, read, held, answered,
        clearSlot, emptied]
      exact ⟨_, by simp only [List.append_assoc]; rfl, by simp only [List.append_assoc]; rfl,
        .expired stored⟩
    · rw [start_resuming (noting_eq .load read) stored (noting_eq (.whoami credential) answered)]
      -- Whether the slot is cleared hangs on what the adoption returns, so it is taken apart here.
      generalize checked : Situation.mk _ _ _ = before
      obtain ⟨exchanges, put, noted, accepting⟩ := accept_recorded others before identity
      have taken := accept_taken others before identity
      rcases accepted : accept others.recorded identity before with ⟨_ | _, t⟩
      all_goals
        subst checked
        simp only [accepted] at put noted accepting taken
      · have none_asked := accepting.nobody_asked (by simpa using taken.symm)
        subst none_asked
        refine ⟨[⟨.load loaded, _⟩, ⟨.whoami credential (.ok identity), _⟩,
          ⟨.clear (others.clear t.world.1).1, _⟩], ?_, ?_, .dismissed stored accepting⟩
        · simp [clearSlot, ask, Collaborators.recorded, noting, put]
        · simp [clearSlot, ask, noted, Exchange.noted, Reply.call]
      · exact ⟨_, by simp [put], by simp [noted, Exchange.noted, Reply.call],
          .resumed stored taken.symm accepting⟩

theorem login_recorded (email password : String) :
    Recorded (fun c => Step c (.login email password)) s
      (login others.recorded email password s) := by
  rcases answered : others.login email password s.world.1 with ⟨e | identity, world⟩
  all_goals
    simp only [login, ask, Collaborators.recorded, noting, change, answered]
  · exact ⟨_, rfl, rfl, .denied⟩
  · obtain ⟨exchanges, put, noted, accepting⟩ := accept_recorded others
      ⟨s.controller.tried, (world, s.world.2 ++ [.login email password (.ok identity)]),
        s.calls ++ [⟨.login email password, s.controller.trying⟩]⟩ identity
    exact ⟨_, put.trans (List.append_assoc ..), noted.trans (List.append_assoc ..),
      .issued accepting⟩

theorem logout_recorded : Recorded (fun c => Step c .logout) s (logout others.recorded s) := by
  rcases answered : others.logout s.controller.bearer? s.world.1 with ⟨e | _, world⟩
  · by_cases policy : s.controller.policy = .clearOnFailure
    · have step : Step s.controller .logout [⟨.logout s.controller.bearer? (.error e), _⟩,
          ⟨.clear (others.clear world).1, _⟩] _ := .dropped (by rw [if_pos policy]; exact ⟨_, rfl⟩)
      simp only [logout, ask, Collaborators.recorded, noting, change, answered, clearSlot,
        if_pos policy]
      exact ⟨_, List.append_assoc .., List.append_assoc .., step⟩
    · have step : Step s.controller .logout [⟨.logout s.controller.bearer? (.error e), _⟩] _ :=
        .dropped (by rw [if_neg policy])
      simp only [logout, ask, Collaborators.recorded, noting, change, answered, if_neg policy]
      exact ⟨_, rfl, rfl, step⟩
  · simp only [logout, ask, Collaborators.recorded, noting, change, answered, clearSlot]
    exact ⟨_, List.append_assoc .., List.append_assoc .., .ended⟩

theorem passThrough_recorded (call : Call) (reply : Except BackendFailure Unit → Reply)
    (same : ∀ result, (reply result).call = call) (answer : σ → Except BackendFailure Unit × σ)
    (success : String) : Recorded
      (fun c exchanges after => ∃ result, exchanges = [⟨reply result, c.waiting⟩] ∧
        after = c.told success result)
      s (passThrough call (noting reply answer) success s).2 := by
  rcases answered : answer s.world.1 with ⟨e | _, world⟩
  all_goals simp only [passThrough, ask, noting, change, answered]
  · exact ⟨[⟨reply (.error e), _⟩], rfl, by simp only [Exchange.noted, same, List.map]; rfl,
      _, rfl, rfl⟩
  · exact ⟨[⟨reply (.ok ()), _⟩], rfl, by simp only [Exchange.noted, same, List.map]; rfl,
      _, rfl, rfl⟩

/-- Whatever the others answer, an operation does to a session what its step says. -/
theorem perform_recorded (op : Operation) :
    Recorded (fun c => Step c op) s (perform others.recorded op s).2 := by
  cases op with
  | start => exact start_recorded others s
  | login email password => exact login_recorded others s email password
  | accept identity =>
    obtain ⟨exchanges, put, noted, accepting⟩ := accept_recorded others s identity
    exact ⟨exchanges, put, noted, .accepted accepting⟩
  | refresh =>
    obtain ⟨exchanges, put, noted, refreshing⟩ := refresh_recorded others s
    exact ⟨exchanges, put, noted, .refreshed refreshing⟩
  | logout => exact logout_recorded others s
  | sendResetLink email =>
    obtain ⟨_, put, noted, result, rfl, told⟩ := passThrough_recorded s (.sendResetLink email)
      (.sendResetLink email) (fun _ => rfl) (others.sendResetLink email) linkSentMessage
    exact ⟨_, put, noted, told ▸ .linkAsked⟩
  | resetPassword reset =>
    obtain ⟨_, put, noted, result, rfl, told⟩ := passThrough_recorded s (.resetPassword reset)
      (.resetPassword reset) (fun _ => rfl) (others.resetPassword reset) passwordUpdatedMessage
    exact ⟨_, put, noted, told ▸ .passwordReset⟩

end CredentialGate.Session
