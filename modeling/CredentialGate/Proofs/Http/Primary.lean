import CredentialGate.Http.Collaborators
import CredentialGate.Proofs.Http.Complaint

/-! The primary backend over a network, as one of the collaborators of a session. The last response
to a call decides it; a call that has none fails in a way that has a message of its own. -/
namespace CredentialGate.Session.BackendFailure

/-- Whether a response has brought the failure. -/
def isAnswered : BackendFailure → Bool
  | response _ _ => true
  | _ => false

/-- Only a response can leave the user without a message. -/
theorem userMessage_unanswered {e : BackendFailure} (unanswered : e.isAnswered = false) :
    e.userMessage ≠ "" := by
  cases e with
  | response status message => simp [isAnswered] at unanswered
  | unreachable reason => simp [userMessage, unreachableMessage]
  | clientConstruction reason => simp [userMessage, clientMessage]
  | invalidIdentity => simp [userMessage, invalidTokenMessage]

end CredentialGate.Session.BackendFailure

namespace CredentialGate.Http

open Session

/-- The same collaborators, with the primary backend over a network. -/
def Primary.serving (p : Primary) (net : Network σ) (others : Collaborators σ) :
    Collaborators σ :=
  { others with
    login := p.login net
    whoami := p.whoami net
    logout := p.logout net
    sendResetLink := p.sendResetLink net
    resetPassword := p.resetPassword net }

/-- What a login comes to when a response has arrived whole. -/
def loginAnswer (r : Response) : Except BackendFailure LocalIdentity :=
  if r.isSuccess then (LocalIdentity.read r.body).mapError fun _ => .invalidIdentity
  else .error (.response r.status r.complaint)

/-- The last response to a call for an identity decides it. -/
theorem Primary.askIdentity_answered {net : Network σ} {request : Request} {response : Response}
    {s reached : σ}
    (answered : followUp net request greatestRedirects s = (.ok response, reached))
    (whole : response.isComplete = true) :
    askIdentity net (.ok request) s = (loginAnswer response, reached) := by
  simp only [askIdentity, exchange, answered]
  cases success : response.isSuccess with
  | true =>
    simp only [Except.bind, Response.successOnly, identityOf, Response.wholeBody, loginAnswer,
      success, whole, if_true]
    rfl
  | false =>
    simp only [Except.bind, Response.successOnly, loginAnswer, success, Bool.false_eq_true,
      if_false]

theorem Primary.login_answered {p : Primary} {net : Network σ} {email password : String}
    {request : Request} {response : Response} {s reached : σ}
    (built : p.loginRequest email password = .ok request)
    (answered : followUp net request greatestRedirects s = (.ok response, reached))
    (whole : response.isComplete = true) :
    p.login net email password s = (loginAnswer response, reached) := by
  rw [Primary.login, built]
  exact askIdentity_answered answered whole

theorem Request.build_method {method : Method} {url : Except BackendFailure Url}
    {bearer? : Option Credential} {document? : Option Json.Value} {r : Request}
    (built : build method url bearer? document? = .ok r) : r.method = method := by
  cases url with
  | error e => cases built
  | ok url =>
    simp only [build, bind, Except.bind] at built
    split at built
    · split at built
      · cases built
        rfl
      · split at built
        · cases built
          rfl
        · cases built
    · cases built

/-- A call whose request is lost fails, whether or not one could be built. -/
theorem exchange_lost {net : Network σ} {request : Except BackendFailure Request} {s : σ}
    (lost : ∀ r, request = .ok r → (net.send r s).1 = none) :
    ∃ e, (exchange net request s).1 = .error e := by
  cases request with
  | error e => exact ⟨e, rfl⟩
  | ok r =>
    have gone := lost r rfl
    rcases sent : net.send r s with ⟨response?, reached⟩
    rw [sent] at gone
    cases gone
    rw [exchange, followUp, sent]
    exact ⟨_, rfl⟩

theorem Primary.logout_lost {net : Network σ} {s : σ}
    (lost : ∀ r, r.method = .post → (net.send r s).1 = none) (p : Primary)
    (bearer? : Option Credential) : ∃ e, (p.logout net bearer? s).1 = .error e := by
  have gone : ∀ r, p.logoutRequest bearer? = .ok r → (net.send r s).1 = none :=
    fun r built => lost r (Request.build_method built)
  obtain ⟨e, failed⟩ := exchange_lost gone
  exact ⟨e, by simp [Primary.logout, tell, failed, Except.map]⟩

theorem Primary.whoami_lost {net : Network σ} {s : σ}
    (lost : ∀ r, r.method = .get → (net.send r s).1 = none) (p : Primary) (bearer : Credential) :
    ∃ e, (p.whoami net bearer s).1 = .error e := by
  have gone : ∀ r, p.whoamiRequest bearer = .ok r → (net.send r s).1 = none :=
    fun r built => lost r (Request.build_method built)
  obtain ⟨e, failed⟩ := exchange_lost gone
  exact ⟨e, by simp [Primary.whoami, askIdentity, failed, Except.bind]⟩

theorem followUp_unanswered {net : Network σ} {redirects : Nat} {r : Request} {s : σ}
    {e : BackendFailure} (failed : (followUp net r redirects s).1 = .error e) :
    e.isAnswered = false := by
  fun_induction followUp net r redirects s with
  | case1 | case3 | case5 =>
    cases failed
    rfl
  | case2 => cases failed
  | case4 =>
    -- The redirect has been followed.
    rename_i ih
    exact ih failed

theorem Request.build_unanswered {method : Method} {url : Except BackendFailure Url}
    {bearer? : Option Credential} {document? : Option Json.Value} {e : BackendFailure}
    (read : ∀ e, url = .error e → e.isAnswered = false)
    (failed : build method url bearer? document? = .error e) : e.isAnswered = false := by
  cases url with
  | error e' =>
    cases failed
    exact read e rfl
  | ok url =>
    simp only [build, bind, Except.bind] at failed
    split at failed
    · split at failed
      · cases failed
      · split at failed <;> cases failed
        rfl
    · cases failed
      rfl

theorem Primary.url_unanswered {p : Primary} {path : String} {e : BackendFailure}
    (failed : p.url path = .error e) : e.isAnswered = false := by
  rw [Primary.url] at failed
  cases read : Url.read (p.base ++ path) with
  | error reason =>
    rw [read] at failed
    cases failed
    rfl
  | ok url =>
    rw [read] at failed
    cases failed

/-- The last response to a request, if the request could be built and nothing was lost. -/
def lastResponse? (net : Network σ) (request : Except BackendFailure Request) (s : σ) :
    Option Response :=
  request.toOption.bind fun r => (followUp net r greatestRedirects s).1.toOption

/-- A network that answers without a redirect has the last word at once. -/
theorem lastResponse?_final {net : Network σ} {request : Except BackendFailure Request} {s : σ}
    {response : Response} (stays : response.status ∉ redirectStatuses)
    (sent : ∀ r, (net.send r s).1 = some response) (built : request.toOption.isSome = true) :
    lastResponse? net request s = some response := by
  cases request with
  | error e => simp [Except.toOption] at built
  | ok r =>
    rcases arrived : net.send r s with ⟨response?, reached⟩
    have given := sent r
    rw [arrived] at given
    cases given
    have answered : followUp net r greatestRedirects s = (.ok response, reached) := by
      rw [followUp]
      simp [arrived, redirection?, stays]
    simp [lastResponse?, Except.toOption, answered]

theorem exchange_answered {net : Network σ} {request : Except BackendFailure Request} {s : σ}
    {response : Response} (last : lastResponse? net request s = some response) :
    (exchange net request s).1 = response.successOnly := by
  cases request with
  | error e => cases last
  | ok r =>
    rcases answered : followUp net r greatestRedirects s with ⟨e | answer, reached⟩
    · simp [lastResponse?, Except.toOption, answered] at last
    · simp only [lastResponse?, Except.toOption, answered, Option.bind_some,
        Option.some.injEq] at last
      simp [exchange, answered, last, Except.bind]

theorem Primary.askIdentity_last {net : Network σ} {request : Except BackendFailure Request} {s : σ}
    {response : Response} (last : lastResponse? net request s = some response)
    (whole : response.isComplete = true) :
    (askIdentity net request s).1 = loginAnswer response := by
  cases request with
  | error e => cases last
  | ok built =>
    rcases answered : followUp net built greatestRedirects s with ⟨e | given, reached⟩
    · simp [lastResponse?, Except.toOption, answered] at last
    · obtain rfl : given = response := by
        simpa [lastResponse?, Except.toOption, answered] using last
      rw [askIdentity_answered answered whole]

theorem exchange_unanswered {net : Network σ} {request : Except BackendFailure Request} {s : σ}
    (built : ∀ e, request = .error e → e.isAnswered = false)
    (last : lastResponse? net request s = none) :
    ∃ e, (exchange net request s).1 = .error e ∧ e.isAnswered = false := by
  cases request with
  | error e => exact ⟨e, rfl, built e rfl⟩
  | ok r =>
    rcases answered : followUp net r greatestRedirects s with ⟨e | answer, reached⟩
    · have unanswered : e.isAnswered = false := followUp_unanswered (congrArg Prod.fst answered)
      exact ⟨e, by simp [exchange, answered, Except.bind], unanswered⟩
    · simp [lastResponse?, Except.toOption, answered] at last

/-- How a call of which only the success counts ends, by the last response to it. -/
inductive Ending : Option Response → Except BackendFailure Unit → Prop
  | granted {r : Response} : r.isSuccess = true → Ending (some r) (.ok ())
  | denied {r : Response} : r.isSuccess = false →
      Ending (some r) (.error (.response r.status r.complaint))
  | lost {e : BackendFailure} : e.isAnswered = false → Ending none (.error e)

theorem Ending.refused {r : Response} {ended : Except BackendFailure Unit}
    (ends : Ending (some r) ended) (failure : r.isSuccess = false) :
    ended = .error (.response r.status r.complaint) := by
  cases ends with
  | granted success => simp [failure] at success
  | denied _ => rfl

theorem Primary.tell_ends {net : Network σ} {request : Except BackendFailure Request} {s : σ}
    (built : ∀ e, request = .error e → e.isAnswered = false) :
    Ending (lastResponse? net request s) (tell net request s).1 := by
  cases last : lastResponse? net request s with
  | none =>
    obtain ⟨e, failed, unanswered⟩ := exchange_unanswered built last
    simp only [tell, failed, Except.map]
    exact .lost unanswered
  | some response =>
    have answer := exchange_answered last
    cases success : response.isSuccess with
    | true =>
      simp only [tell, answer, Response.successOnly, success, if_true, Except.map]
      exact .granted success
    | false =>
      simp only [tell, answer, Response.successOnly, success, Bool.false_eq_true, if_false,
        Except.map]
      exact .denied success

theorem Primary.logout_ends (p : Primary) (net : Network σ) (bearer? : Option Credential) (s : σ) :
    Ending (lastResponse? net (p.logoutRequest bearer?) s) (p.logout net bearer? s).1 :=
  tell_ends fun _ failed => Request.build_unanswered (fun _ => url_unanswered) failed

section

variable (b : Backends) (net : Network σ) (world : Setting σ)

theorem Backends.whoami_answer (bearer : Credential) :
    ((b.collaborators net).whoami bearer world).1 =
      (b.primary.whoami net bearer world.network).1 := rfl

theorem Backends.logout_answer (bearer? : Option Credential) :
    ((b.collaborators net).logout bearer? world).1 =
      (b.primary.logout net bearer? world.network).1 := rfl

end

end CredentialGate.Http
