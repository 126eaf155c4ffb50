import CredentialGate.Proofs.Review.Decision
import CredentialGate.Proofs.Review.Wire
import CredentialGate.Webhook

/-! What the webhook answers to a review that has been posted. The answer hangs on what the body
says and on what the store knows of the one token in it; whatever the sink does, it stays the
same. -/
namespace CredentialGate.Webhook

open Json Review Store

/-- The body is a review of a token that the store gives to the user. -/
def Vouched (lookup : Lookup) (body : Bytes) (user : User) : Prop :=
  ∃ review token, Review.Request.read body = .ok review ∧ review.kind? = some "TokenReview" ∧
    (review.spec?.bind (·.token?)) = some token ∧ token ≠ "" ∧ lookup token = .ok (some user)

/-- The body does not say that it is a review. -/
def Malformed (body : Bytes) : Prop :=
  ∀ review, Review.Request.read body = .ok review → review.kind? ≠ some "TokenReview"

/-- The answer to a request that is posted to the review path. -/
theorem answer_posted {lookup : Lookup} {sink : Sink σ} {request : Request} {s : σ}
    (posted : request.method = "POST") (routed : pathOf request.target = reviewPath)
    (fits : request.body.length ≤ bodyLimit) :
    (answer lookup sink request s).1 =
      let outcome := Outcome.of (verdict lookup (requestOf request.body))
      .json outcome.status outcome.body.document := by
  have within : ¬ bodyLimit < request.body.length := Nat.not_lt.mpr fits
  simp only [answer, if_pos routed, if_pos posted, authenticate, if_neg within]
  rw [← review_outcome lookup sink (requestOf request.body) s]

/-- A request that is posted as it was written is reviewed as it was meant. -/
theorem answer_written {lookup : Lookup} {sink : Sink σ} {request : Request} {s : σ}
    {review : Review.Request} (posted : request.method = "POST")
    (routed : pathOf request.target = reviewPath) (body : request.body = review.document.write)
    (fits : request.body.length ≤ bodyLimit) :
    (answer lookup sink request s).1 =
      let outcome := Outcome.of (verdict lookup review)
      .json outcome.status outcome.body.document := by
  have meant : requestOf request.body = review := by
    rw [body, requestOf, Review.Request.read_document]
  rw [answer_posted posted routed fits, meant]

theorem vouched_iff {lookup : Lookup} {body : Bytes} {user : User} :
    Vouched lookup body user ↔ verdict lookup (requestOf body) = .ok user := by
  unfold Vouched requestOf
  rw [verdict_eq_ok_iff]
  cases decoded : Review.Request.read body with
  | error e => simp [check_eq_ok_iff, Request.empty]
  | ok review =>
    constructor
    · rintro ⟨_, token, same, kind, held, present, found⟩
      cases same
      exact ⟨token, check_eq_ok_iff.mpr ⟨kind, token_eq_some_iff.mpr ⟨held, present⟩⟩, found⟩
    · rintro ⟨token, checked, found⟩
      obtain ⟨kind, held⟩ := check_eq_ok_iff.mp checked
      obtain ⟨held, present⟩ := token_eq_some_iff.mp held
      exact ⟨review, token, rfl, kind, held, present, found⟩

theorem malformed_iff (lookup : Lookup) (body : Bytes) :
    Malformed body ↔ verdict lookup (requestOf body) = .error .malformedRequest := by
  unfold Malformed requestOf
  rw [verdict_malformed_iff]
  cases decoded : Review.Request.read body with
  | error e => simp [Request.empty]
  | ok review => simp [reviewKind]

/-- A posted review is answered in one of three ways, and its body tells which. -/
theorem posted_review_answered (lookup : Lookup) (sink : Sink σ) (request : Request) (s : σ)
    (posted : request.method = "POST") (routed : pathOf request.target = reviewPath)
    (fits : request.body.length ≤ bodyLimit) :
    let reply := (answer lookup sink request s).1
    (reply.status = 200 ↔ ∃ user, Vouched lookup request.body user) ∧
    (reply.status = 400 ↔ Malformed request.body) ∧
    (reply.status = 401 ↔
      ¬ Malformed request.body ∧ ¬ ∃ user, Vouched lookup request.body user) ∧
    (∃ response, Response.read reply.body = .ok response ∧
      response.kind = "TokenReview" ∧
      response.apiVersion = "authentication.k8s.io/v1beta1" ∧
      (response.status.authenticated = true ↔ reply.status = 200) ∧
      (response.status.user?.isSome ↔ response.status.authenticated = true) ∧
      ∀ user, Vouched lookup request.body user →
        response.status.user? = some ⟨user.email, []⟩) ∧
    ∀ (τ : Type) (other : Sink τ) (t : τ), (answer lookup other request t).1 = reply := by
  intro reply
  have same (τ : Type) (other : Sink τ) (t : τ) : (answer lookup other request t).1 = reply :=
    (answer_posted posted routed fits).trans (answer_posted posted routed fits).symm
  have shape : reply = _ := answer_posted posted routed fits
  clear_value reply
  subst shape
  simp only [vouched_iff, malformed_iff lookup]
  cases decided : verdict lookup (requestOf request.body) with
  | ok user =>
    refine ⟨?_, ?_, ?_, ⟨_, Response.read_document _, rfl, rfl, ?_, ?_, ?_⟩, decided ▸ same⟩
    all_goals simp [Outcome.of, Reply.json, Response.authenticated]
  | error reason =>
    refine ⟨?_, ?_, ?_, ⟨_, Response.read_document _, rfl, rfl, ?_, ?_, ?_⟩, decided ▸ same⟩
    all_goals cases reason <;>
      simp [Outcome.of, Reply.json, Rejection.status, Response.unauthenticated]

/-- A token that the store knows is accepted, also when nothing can be recorded. -/
theorem known_token_answered :
    let lookup : Lookup := fun token =>
      .ok (if token = "abc" then some ⟨"Alice", "alice@example.org", "lab"⟩ else none)
    let silent : Sink Unit := ⟨fun _ _ => (false, ())⟩
    let request : Request :=
      ⟨"POST", "/authenticate", (Review.Request.forToken "abc").document.write⟩
    request.method = "POST" ∧ pathOf request.target = reviewPath ∧
      request.body.length ≤ bodyLimit ∧ (answer lookup silent request ()).1.status = 200 := by
  intro lookup silent request
  have routed : pathOf request.target = reviewPath := by decide
  have fits : request.body.length ≤ bodyLimit := by decide
  refine ⟨rfl, routed, fits, ?_⟩
  have answered := posted_review_answered lookup silent request () rfl routed fits
  exact answered.1.mpr ⟨_, _, "abc", Review.Request.read_document _, rfl, rfl, by decide, rfl⟩

end CredentialGate.Webhook
