import CredentialGate.Proofs.Http.Primary
import CredentialGate.Proofs.Session.Storage
import CredentialGate.Session.Script

/-! An identity that cannot be read, beside one that was issued without a credential. Both are
refused, and a login cannot tell the one from the other. The check of a stored credential can: it
tells the user of an invalid token only if there was an identity to refuse. -/
namespace CredentialGate.Session

open Http Situation

/-- A response that grants a call for an identity. It has arrived whole, but its body is none. -/
structure Unreadable (r : Response) : Prop where
  granted : r.isSuccess = true
  whole : r.isComplete = true
  unread : ∀ identity, LocalIdentity.read r.body ≠ .ok identity

/-- A response that grants a call for an identity, and brings one whose credential is missing or
empty. -/
structure Unissued (r : Response) : Prop where
  granted : r.isSuccess = true
  whole : r.isComplete = true
  bare : ∃ identity, LocalIdentity.read r.body = .ok identity ∧
    ∀ c, identity.credential? = some c → c.token = ""

theorem Unreadable.loginAnswer_eq {r : Response} (unreadable : Unreadable r) :
    loginAnswer r = .error .invalidIdentity := by
  rw [loginAnswer, if_pos unreadable.granted]
  cases read : LocalIdentity.read r.body with
  | error e => rfl
  | ok identity => exact absurd read (unreadable.unread identity)

theorem Unissued.loginAnswer_eq {r : Response} (unissued : Unissued r) :
    ∃ identity, loginAnswer r = .ok identity ∧ identity.usableCredential? = none := by
  obtain ⟨identity, read, bare⟩ := unissued.bare
  refine ⟨identity, ?_, ?_⟩
  · rw [loginAnswer, if_pos unissued.granted, read]
    rfl
  · simpa [LocalIdentity.usableCredential?, Option.filter_eq_none_iff, Credential.isEmpty]
      using bare

/-- What is left of two operations is the same: the session with all that it shows, the storage, and
the calls that were made. -/
structure LeftAlike (t u : Situation (ρ × σ)) : Prop where
  controller : t.controller = u.controller
  calls : t.calls = u.calls
  stored : t.world.2 = u.world.2

/-- The same session, but for what it tells the user. -/
def Controller.saying (message : String) (c : Controller) : Controller :=
  { c with
    message := message
    channel := { c.channel with latest := { c.channel.latest with message := message } } }

section

variable {a : Collaborators ρ} {storage : Storage σ} {s : Situation (ρ × σ)}
  {email password : String} {c : Credential} {identity : LocalIdentity}

/-- The session after a login that has issued nothing. -/
def Controller.unissued (c : Controller) : Controller :=
  { c.tried with
    bearer? := none
    message := BackendFailure.invalidTokenMessage }.transition .unauthenticated

theorem login_unread
    (unread : (a.login email password s.world.1).1 = .error .invalidIdentity) :
    login (a.beside storage) email password s =
      ⟨s.controller.unissued, ((a.login email password s.world.1).2, s.world.2),
        s.calls ++ [⟨.login email password, s.controller.trying⟩]⟩ := by
  rcases answered : a.login email password s.world.1 with ⟨answer, x⟩
  rw [answered] at unread
  cases unread
  simp only [login, ask, change, Collaborators.beside, remotely, answered]
  rfl

theorem login_unissued
    (issued : (a.login email password s.world.1).1 = .ok identity)
    (unusable : identity.usableCredential? = none) :
    login (a.beside storage) email password s =
      ⟨s.controller.unissued, ((a.login email password s.world.1).2, s.world.2),
        s.calls ++ [⟨.login email password, s.controller.trying⟩]⟩ := by
  rcases answered : a.login email password s.world.1 with ⟨answer, x⟩
  rw [answered] at issued
  cases issued
  simp only [login, ask, change, Collaborators.beside, remotely, answered, accept, unusable]
  rfl

/-- What a session finds depends on the storage beside it alone. -/
theorem found?_beside (a : Collaborators ρ) (storage : Storage σ) (s : Situation (ρ × σ)) :
    found? (a.beside storage) s =
      (storage.load s.world.2).1.toOption.join.filter (!·.isEmpty) := rfl

/-- What a start has called by the time that it clears the storage. -/
def checkCalls (s : Situation σ) (c : Credential) : List Noted :=
  s.calls ++ [⟨.load, s.controller⟩, ⟨.whoami c, s.controller.checking⟩]

/-- A check that fails leaves the message alone. -/
theorem start_unread (found : found? (a.beside storage) s = some c)
    (unread : (a.whoami c s.world.1).1 = .error .invalidIdentity) :
    start (a.beside storage) s =
      ⟨{ s.controller.checked with bearer? := none }.transition .unauthenticated,
        ((a.whoami c s.world.1).2, (storage.clear (storage.load s.world.2).2).2),
        checkCalls s c ++ [⟨.clear, s.controller.checked⟩]⟩ := by
  rcases read : storage.load s.world.2 with ⟨loaded, kept⟩
  rw [found?_beside, read] at found
  rcases answered : a.whoami c s.world.1 with ⟨answer, x⟩
  rw [answered] at unread
  cases unread
  simp only [start, ask, change, Collaborators.beside, remotely, locally, read, found, answered,
    clearSlot, List.append_assoc, List.cons_append, List.nil_append, checkCalls]
  rfl

/-- A check that finds an identity without a credential tells of an invalid token. -/
theorem start_unissued (found : found? (a.beside storage) s = some c)
    (issued : (a.whoami c s.world.1).1 = .ok identity)
    (unusable : identity.usableCredential? = none) :
    let refused := ({ s.controller.checked with bearer? := none }.transition
      .unauthenticated).saying BackendFailure.invalidTokenMessage
    start (a.beside storage) s =
      ⟨refused, ((a.whoami c s.world.1).2, (storage.clear (storage.load s.world.2).2).2),
        checkCalls s c ++ [⟨.clear, refused⟩]⟩ := by
  rcases read : storage.load s.world.2 with ⟨loaded, kept⟩
  rw [found?_beside, read] at found
  rcases answered : a.whoami c s.world.1 with ⟨answer, x⟩
  rw [answered] at issued
  cases issued
  simp only [start, ask, change, Collaborators.beside, remotely, locally, read, found, answered,
    accept, unusable, clearSlot, List.append_assoc, List.cons_append, List.nil_append, checkCalls]
  rfl

/-- A session whose message is shown says no more by saying it again. -/
theorem eq_saying_iff {c : Controller} {message : String}
    (shown : c.channel.latest.message = c.message) :
    c = c.saying message ↔ c.message = message := by
  constructor
  · intro same
    exact congrArg Controller.message same
  · rintro rfl
    obtain ⟨policy, state, bearer?, message, loading, resuming, ⟨latest, sent⟩⟩ := c
    change latest.message = message at shown
    subst shown
    rfl

end

/-- A success of the primary backend whose body is no identity, beside one that brings an identity
whose credential is missing or empty: whatever has gone before and wherever the credential is kept,
a login leaves the same of both. So does the check of a stored credential, but for the message. It
stays as it was if the identity cannot be read, and tells of an invalid token if it can; so there
the two are alike only where the message has told of one before. -/
theorem unread_identity_refused (p : Primary) (others : Collaborators ρ) (storage : Storage σ)
    {net other : Network ρ} {blurred plain : Response} (unreadable : Unreadable blurred)
    (unissued : Unissued plain) (s : Situation (ρ × σ)) :
    let a := (p.serving net others).beside storage
    let b := (p.serving other others).beside storage
    (∀ email password,
      lastResponse? net (p.loginRequest email password) s.world.1 = some blurred →
      lastResponse? other (p.loginRequest email password) s.world.1 = some plain →
      let t := (perform a (.login email password) s).2
      LeftAlike t (perform b (.login email password) s).2 ∧
        t.controller.message = "invalid token" ∧ t.world.2 = s.world.2) ∧
    ∀ c, found? a s = some c →
      lastResponse? net (p.whoamiRequest c) s.world.1 = some blurred →
      lastResponse? other (p.whoamiRequest c) s.world.1 = some plain →
      let t := (perform a .start s).2
      let u := (perform b .start s).2
      u.controller = t.controller.saying "invalid token" ∧
      t.controller.message = s.controller.message ∧
      (t.controller = u.controller ↔ s.controller.message = "invalid token") ∧
      t.calls.map (·.call) = u.calls.map (·.call) ∧ t.world.2 = u.world.2 := by
  obtain ⟨identity, issued, unusable⟩ := unissued.loginAnswer_eq
  have unread {request : Except BackendFailure Request}
      (last : lastResponse? net request s.world.1 = some blurred) :
      (Primary.askIdentity net request s.world.1).1 = .error .invalidIdentity :=
    (Primary.askIdentity_last last unreadable.whole).trans unreadable.loginAnswer_eq
  have given {request : Except BackendFailure Request}
      (last : lastResponse? other request s.world.1 = some plain) :
      (Primary.askIdentity other request s.world.1).1 = .ok identity :=
    (Primary.askIdentity_last last unissued.whole).trans issued
  simp only [perform]
  constructor
  · intro email password first second
    have failed : ((p.serving net others).login email password s.world.1).1 = _ := unread first
    have brought : ((p.serving other others).login email password s.world.1).1 = _ := given second
    rw [login_unread failed, login_unissued brought unusable]
    exact ⟨⟨rfl, rfl, rfl⟩, rfl, rfl⟩
  · intro c found first second
    have failed : ((p.serving net others).whoami c s.world.1).1 = _ := unread first
    have brought : ((p.serving other others).whoami c s.world.1).1 = _ := given second
    have alsoFound : found? ((p.serving other others).beside storage) s = some c := by
      rw [found?_beside] at found ⊢
      exact found
    rw [start_unread found failed, start_unissued alsoFound brought unusable]
    exact ⟨rfl, rfl, eq_saying_iff rfl, by simp, rfl⟩

/-- A network that gives every request the same response. -/
def giving (r : Response) : Network ρ := ⟨fun _ world => (some r, world)⟩

theorem lastResponse?_giving {r : Response} (stays : r.status ∉ redirectStatuses)
    {request : Except BackendFailure Request} (built : request.toOption.isSome = true) (world : ρ) :
    lastResponse? (giving r) request world = some r :=
  lastResponse?_final stays (fun _ => rfl) built

/-- A page where an identity is due. -/
def page : Response := ⟨200, none, Text.utf8 "<html>", true⟩

/-- An identity of which nothing is known. -/
def nobody : Response := ⟨200, none, Text.utf8 "\x7b\x7d", true⟩

theorem unreadable_page : Unreadable page where
  granted := rfl
  whole := rfl
  unread identity read := by
    have refused : (LocalIdentity.read page.body).toOption.isNone = true := by decide +kernel
    simp [read, Except.toOption] at refused

theorem unissued_nobody : Unissued nobody where
  granted := rfl
  whole := rfl
  bare := by
    have decoded : (LocalIdentity.read nobody.body).toOption.map (·.credential?) = some none := by
      decide +kernel
    cases read : LocalIdentity.read nobody.body with
    | error e => simp [read, Except.toOption] at decoded
    | ok identity =>
      have missing : identity.credential? = none := by
        simpa [read, Except.toOption] using decoded
      exact ⟨identity, rfl, by simp [missing]⟩

/-- A storage in memory. -/
def inMemory : Storage (Option Credential) where
  load held? := (.ok held?, held?)
  save c _ := (.ok (), some c)
  clear _ := (.ok (), none)

def primaryAtA : Primary := ⟨"http://a", ⟨"/login", "/user", "", "", ""⟩⟩

theorem loginRequest_sendable :
    (primaryAtA.loginRequest "alice" "secret").toOption.isSome = true := by
  decide +kernel

theorem whoamiRequest_sendable : (primaryAtA.whoamiRequest ⟨"abc"⟩).toOption.isSome = true := by
  decide +kernel

/-- The primary backend gives one response to every call, and the credential stays in memory. -/
def answeredBy (r : Response) : Collaborators (Stage × Option Credential) :=
  (primaryAtA.serving (giving r) Stage.collaborators).beside inMemory

/-- A fresh session, with a credential from an earlier run. -/
def resumable : Situation (Stage × Option Credential) :=
  opening .retain (⟨.silent, .memory none, .empty⟩, some ⟨"abc"⟩)

/-- A page in the place of an identity, at a login and at the check that follows: by then the user
has been told of an invalid token, and the check says the same. -/
theorem page_refused :
    let t := (perform (answeredBy page) (.login "alice" "secret") resumable).2
    LeftAlike t (perform (answeredBy nobody) (.login "alice" "secret") resumable).2 ∧
      found? (answeredBy page) t = some ⟨"abc"⟩ ∧ t.controller.message = "invalid token" ∧
      (perform (answeredBy page) .start t).2.controller =
        (perform (answeredBy nobody) .start t).2.controller := by
  intro t
  have refused := @unread_identity_refused _ _ primaryAtA Stage.collaborators inMemory
    (giving page) (giving nobody) page nobody unreadable_page unissued_nobody
  have login := (refused resumable).1 "alice" "secret"
    (lastResponse?_giving (by decide) loginRequest_sendable _)
    (lastResponse?_giving (by decide) loginRequest_sendable _)
  have told : t.controller.message = "invalid token" := login.2.1
  have kept : t.world.2 = some ⟨"abc"⟩ := login.2.2
  have found : found? (answeredBy page) t = some ⟨"abc"⟩ := by
    change storedCredential? (.ok t.world.2) = some ⟨"abc"⟩
    rw [kept]
    rfl
  have check := (refused t).2 ⟨"abc"⟩ found
    (lastResponse?_giving (by decide) whoamiRequest_sendable _)
    (lastResponse?_giving (by decide) whoamiRequest_sendable _)
  exact ⟨login.1, found, told, check.2.2.1.2 told⟩

/-- A check of a fresh session says nothing of a page, and tells of an invalid token where an
identity without a credential came. -/
theorem page_untold :
    found? (answeredBy page) resumable = some ⟨"abc"⟩ ∧ Unreadable page ∧ Unissued nobody ∧
      (∀ r ∈ [page, nobody],
        lastResponse? (giving r) (primaryAtA.whoamiRequest ⟨"abc"⟩) resumable.world.1 = some r) ∧
      (perform (answeredBy page) .start resumable).2.controller.message = "" ∧
      (perform (answeredBy nobody) .start resumable).2.controller.message = "invalid token" := by
  have found (r : Response) : found? (answeredBy r) resumable = some ⟨"abc"⟩ := rfl
  have given (r : Response) (stays : r.status ∉ redirectStatuses) :
      lastResponse? (giving r) (primaryAtA.whoamiRequest ⟨"abc"⟩) resumable.world.1 = some r :=
    lastResponse?_giving stays whoamiRequest_sendable _
  have unread := (Primary.askIdentity_last (given page (by decide)) rfl).trans
    unreadable_page.loginAnswer_eq
  obtain ⟨identity, issued, unusable⟩ := unissued_nobody.loginAnswer_eq
  have plain := (Primary.askIdentity_last (given nobody (by decide)) rfl).trans issued
  have silent : start (answeredBy page) resumable = _ := start_unread (found page) unread
  have telling : start (answeredBy nobody) resumable = _ :=
    start_unissued (found nobody) plain unusable
  simp only [perform, silent, telling]
  refine ⟨found page, unreadable_page, unissued_nobody, ?_, rfl, rfl⟩
  intro r listed
  refine given r ?_
  revert r
  decide

end CredentialGate.Session
