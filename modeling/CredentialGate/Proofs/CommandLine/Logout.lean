import CredentialGate.CommandLine.Run
import CredentialGate.Proofs.Session.Resumption

/-! A logout at the command line. The stored credential is checked before the session is ended, and
the check has a rule of its own for what is stored: whatever the primary backend does not issue anew
is gone before the logout is sent. -/
namespace CredentialGate.CommandLine

open Files Http Session

/-- Both backends over a network, beside a slot that refuses everything. -/
def remoteOnly (b : Backends) (net : Network σ) : Collaborators σ where
  login := b.primary.login net
  whoami := b.primary.whoami net
  logout := b.primary.logout net
  sendResetLink := b.primary.sendResetLink net
  resetPassword := b.primary.resetPassword net
  fetchUser := b.directory.fetchUser net
  load world := (.error .refused, world)
  save _ world := (.error .refused, world)
  clear world := (.error .refused, world)

theorem remoteOnly_inSetting (b : Backends) (net : Network σ) :
    (remoteOnly b net).inSetting = b.collaborators net := rfl

section

variable {around : Surroundings σ} {env : Config.Environment} {backends : Backends}
  {w : World σ} {c : Credential} {checked : Except BackendFailure LocalIdentity}
  {e : BackendFailure}

theorem session_logout_leaves (client : Config.Client) {reached : σ}
    (configured : backendsOf client = .ok backends) (retaining : client.logoutPolicy = .retain)
    (held : (FileSlot.mk (client.storagePath env)).load w.tree = .ok (some c))
    (answered : backends.primary.whoami around.network c w.network = (checked, reached))
    (failed :
      let resumed := start (backends.collaborators around.network)
        (opening .retain ⟨w.network, .file ⟨client.storagePath env⟩, w.tree⟩)
      (backends.primary.logout around.network resumed.controller.bearer?
        resumed.world.network).1 = .error e) :
    (FileSlot.mk (client.storagePath env)).load (session around client env .logout w).2.tree =
      .ok ((issued? checked).bind withoutBlanks?) := by
  let opened : Situation (Setting σ) :=
    opening .retain ⟨w.network, .file ⟨client.storagePath env⟩, w.tree⟩
  let others := remoteOnly backends around.network
  simp only [← remoteOnly_inSetting] at failed
  obtain ⟨policy, -, stored⟩ := start_leaves (s := opened) others rfl held answered
  have kept := logout_retains others policy failed
  rw [session, configured, retaining]
  simp only [← remoteOnly_inSetting]
  exact (congrArg (FileSlot.load _) kept).trans stored

/-- A policy at the command line goes before that of the settings. -/
def underPolicy (client : Config.Client) (policy? : Option LogoutPolicy) : Config.Client :=
  { client with logoutPolicy := policy?.getD client.logoutPolicy }

theorem execute_logout (settings : Config.Settings) (policy? : Option LogoutPolicy) :
    execute around settings env (.session policy? .logout) w =
      session around (underPolicy settings.client policy?) env .logout w := rfl

/-- What is stored after a logout at the command line that fails, where the policy is to retain: the
credential that the primary backend has issued in answer to the check before, without the blanks
around it. Unless it has issued one that is not blank, nothing is. -/
theorem failed_logout_leaves_reissued {settings : Config.Settings} {policy? : Option LogoutPolicy}
    (configured : backendsOf settings.client = .ok backends)
    (retaining : policy?.getD settings.client.logoutPolicy = .retain)
    (held : (FileSlot.mk (settings.client.storagePath env)).load w.tree = .ok (some c)) :
    let slot : FileSlot := ⟨settings.client.storagePath env⟩
    let others := backends.collaborators around.network
    let opened := opening .retain ⟨w.network, .file slot, w.tree⟩
    let checked := (others.whoami c opened.world).1
    let resumed := start others opened
    let ended := (others.logout resumed.controller.bearer? resumed.world).1
    let left := (execute around settings env (.session policy? .logout) w).2.tree
    ∀ e, ended = .error e →
      slot.load left = .ok ((issued? checked).bind withoutBlanks?) ∧
      ((∃ kept, slot.load left = .ok (some kept)) ↔
        ∃ identity issued, checked = .ok identity ∧ identity.usableCredential? = some issued ∧
          Text.trim issued.token ≠ "") := by
  intro slot others opened checked resumed ended left e failed
  have stored : slot.load left = .ok ((issued? checked).bind withoutBlanks?) :=
    session_logout_leaves (underPolicy settings.client policy?) configured retaining held rfl failed
  refine ⟨stored, ?_⟩
  rw [stored]
  cases checked with
  | error e => simp [issued?, Except.toOption]
  | ok identity =>
    cases usable : identity.usableCredential? with
    | none => simp [issued?, Except.toOption, usable]
    | some issued => simp [issued?, Except.toOption, usable, withoutBlanks?]

/-- A credential that the check has confirmed is kept when the logout is lost. -/
theorem confirmed_credential_retained :
    let body := Text.utf8 "\x7b\"api_token\":\"abc\"\x7d"
    let net : Network Unit := ⟨fun r s =>
      (if r.method = .get then some ⟨200, none, body, true⟩ else none, s)⟩
    let around : Surroundings Unit := ⟨net, fun _ _ => true, ⟨0⟩, ⟨2024, 1, 1⟩, none, none⟩
    let settings : Config.Settings := { Config.Settings.standard with
      client := { Config.Client.standard with
        identityApiUrl? := some "http://127.0.0.1:9"
        storagePath? := some ⟨"api_token"⟩ } }
    let tree : Tree := ⟨[(["api_token"], .file ⟨0, .bytes (Text.utf8 "abc"), ownerOnly⟩)], 1, []⟩
    let slot : FileSlot := ⟨⟨"api_token"⟩⟩
    let left := (execute around settings ⟨[], none⟩ (.session none .logout) ⟨tree, ()⟩).2.tree
    slot.load left = .ok (some ⟨"abc"⟩) := by
  intro body net around settings tree slot left
  let p : Primary := .of settings.client.primaryUrl settings.client.paths
  have sendable : (p.whoamiRequest ⟨"abc"⟩).toOption.isSome = true := by decide +kernel
  obtain ⟨request, built⟩ : ∃ request, p.whoamiRequest ⟨"abc"⟩ = .ok request := by
    cases built : p.whoamiRequest ⟨"abc"⟩ with
    | error e => simp [built, Except.toOption] at sendable
    | ok request => exact ⟨request, rfl⟩
  have answered : followUp net request greatestRedirects () =
      (.ok ⟨200, none, body, true⟩, ()) := by
    rw [followUp]
    simp [net, Request.build_method built, redirection?, redirectStatuses]
  have decoded : (LocalIdentity.read body).toOption.map (·.usableCredential?) =
      some (some ⟨"abc"⟩) := by
    decide +kernel
  obtain ⟨identity, read⟩ : ∃ identity, LocalIdentity.read body = .ok identity := by
    cases read : LocalIdentity.read body with
    | error e => simp [read, Except.toOption] at decoded
    | ok identity => exact ⟨identity, rfl⟩
  have usable : identity.usableCredential? = some ⟨"abc"⟩ := by
    simpa [read, Except.toOption] using decoded
  have checked : p.whoami net ⟨"abc"⟩ () = (.ok identity, ()) := by
    rw [Primary.whoami, built, Primary.askIdentity_answered answered rfl]
    simp [loginAnswer, Response.isSuccess, read, Except.mapError]
  have lost : ∀ r s, r.method = .post → (net.send r s).1 = none := by
    rintro r s post
    simp [net, post]
  let backends : Backends := ⟨p, .of "http://127.0.0.1:9" settings.client.identityApiPrefix⟩
  have held : slot.load tree = .ok (some ⟨"abc"⟩) := by decide +kernel
  have configured : backendsOf settings.client = .ok backends := rfl
  let resumed := start (backends.collaborators net) (opening .retain ⟨(), .file slot, tree⟩)
  obtain ⟨e, failed⟩ := Primary.logout_lost (fun r => lost r resumed.world.network)
    backends.primary resumed.controller.bearer?
  rw [← Backends.logout_answer] at failed
  have stored := (@failed_logout_leaves_reissued Unit around ⟨[], none⟩ backends ⟨tree, ()⟩ ⟨"abc"⟩
    settings none configured rfl held e failed).1
  have answer : ((backends.collaborators net).whoami ⟨"abc"⟩ ⟨(), .file slot, tree⟩).1 =
      .ok identity := by
    rw [Backends.whoami_answer]
    exact congrArg Prod.fst checked
  have kept : (issued? (.ok identity)).bind withoutBlanks? = some ⟨"abc"⟩ := by
    rw [issued?, Except.toOption, Option.bind_some, usable]
    decide +kernel
  exact stored.trans (congrArg Except.ok (answer.symm ▸ kept))

/-- A backend that cannot be reached costs the user the credential, although it is to be retained:
the check before the logout has cleared it. -/
theorem unreachable_backend_empties_slot :
    let around : Surroundings Unit :=
      ⟨Network.down, fun _ _ => true, ⟨0⟩, ⟨2024, 1, 1⟩, none, none⟩
    let settings : Config.Settings := { Config.Settings.standard with
      client := { Config.Client.standard with
        identityApiUrl? := some "http://127.0.0.1:9"
        storagePath? := some ⟨"api_token"⟩ } }
    let tree : Tree := ⟨[(["api_token"], .file ⟨0, .bytes (Text.utf8 "abc"), ownerOnly⟩)], 1, []⟩
    let slot : FileSlot := ⟨⟨"api_token"⟩⟩
    let backends : Backends := ⟨.of settings.client.primaryUrl settings.client.paths,
      .of "http://127.0.0.1:9" settings.client.identityApiPrefix⟩
    let others := backends.collaborators around.network
    let resumed := start others (opening .retain ⟨(), .file slot, tree⟩)
    let left := (execute around settings ⟨[], none⟩ (.session none .logout) ⟨tree, ()⟩).2.tree
    backendsOf settings.client = .ok backends ∧ settings.client.logoutPolicy = .retain ∧
      slot.load tree = .ok (some ⟨"abc"⟩) ∧
      (∃ e, (others.logout resumed.controller.bearer? resumed.world).1 = .error e) ∧
      slot.load left = .ok none := by
  intro around settings tree slot backends others resumed left
  have held : slot.load tree = .ok (some ⟨"abc"⟩) := by decide +kernel
  have configured : backendsOf settings.client = .ok backends := rfl
  have lost (m : Method) (r : Request) (_ : r.method = m) : (around.network.send r ()).1 = none :=
    rfl
  obtain ⟨reason, refused⟩ := Primary.whoami_lost (lost .get) backends.primary ⟨"abc"⟩
  obtain ⟨ending, failed⟩ := Primary.logout_lost (lost .post) backends.primary
    resumed.controller.bearer?
  have answered : backends.primary.whoami around.network ⟨"abc"⟩ () = (.error reason, ()) :=
    Prod.ext refused (Subsingleton.elim _ _)
  have stored := @session_logout_leaves Unit around ⟨[], none⟩ backends ⟨tree, ()⟩ ⟨"abc"⟩
    (.error reason) ending (underPolicy settings.client none) () configured rfl held answered failed
  rw [← Backends.logout_answer] at failed
  refine ⟨configured, rfl, held, ⟨ending, failed⟩, ?_⟩
  simp only [left, execute_logout]
  exact stored

end

end CredentialGate.CommandLine
