import CredentialGate.Proofs.Review.Decision

/-! What reviews tell of the tokens in them. A review is a function of what may be seen of its
request: the kind and the version, the fingerprint of the token and the user that the store gives
for it. So two runs that look alike in this are recorded alike and answered alike. The digest behind
the fingerprint is never opened. -/
namespace CredentialGate.Review

open Store Audit

/-- A request with the store as it is when the request is reviewed. -/
structure Inquiry where
  lookup : Lookup
  request : Request

/-- What may be seen of an inquiry. -/
structure View where
  kind? : Option String
  apiVersion? : Option String
  fingerprint? : Option String
  user? : Option User
deriving DecidableEq

/-- A store that fails gives no user. -/
def Inquiry.view (i : Inquiry) : View where
  kind? := i.request.kind?
  apiVersion? := i.request.apiVersion?
  fingerprint? := i.request.token?.map fingerprint
  user? := i.request.token?.bind fun token => (i.lookup token).toOption.join

/-- Reviews one after the other, with their outcomes and what becomes of the destination. -/
def reviewAll (sink : Sink σ) : List Inquiry → σ → List Outcome × σ
  | [], s => ([], s)
  | i :: later, s =>
    let (outcome, s) := review i.lookup sink i.request s
    let (outcomes, s) := reviewAll sink later s
    (outcome :: outcomes, s)

/-- The actions that are given to the destination, in their order. -/
def Inquiry.actions (i : Inquiry) : List Action :=
  received i.request :: confirmed (verdict i.lookup i.request)

namespace View

def decision (v : View) : Except Rejection User :=
  if v.kind? = some reviewKind then
    match v.fingerprint?, v.user? with
    | none, _ => .error .missingCredential
    | some _, some user => .ok user
    | some _, none => .error .unknownCredential
  else .error .malformedRequest

def actions (v : View) : List Action :=
  .reviewReceived v.kind? v.apiVersion? v.fingerprint? :: confirmed v.decision

end View

theorem judge_eq (answer : Except Failure (Option User)) :
    judge answer =
      match answer.toOption.join with
      | some user => .ok user
      | none => .error .unknownCredential := by
  rcases answer with failure | _ | user <;> rfl

/-- The decision needs no more than may be seen. -/
theorem verdict_eq_decision (i : Inquiry) : verdict i.lookup i.request = i.view.decision := by
  unfold verdict Request.check View.decision
  by_cases kind : i.request.kind? = some reviewKind
  · cases held : i.request.token? with
    | none => simp [Inquiry.view, kind, held]
    | some token =>
      simp only [Inquiry.view, kind, held, judge_eq, if_true, Option.map_some, Option.bind_some]
      cases (i.lookup token).toOption.join <;> rfl
  · simp [Inquiry.view, kind]

theorem actions_eq (i : Inquiry) : i.actions = i.view.actions := by
  unfold Inquiry.actions View.actions
  rw [verdict_eq_decision]
  rfl

/-- Outcomes and destination are told by the views alone. -/
theorem reviewAll_eq (sink : Sink σ) (inquiries : List Inquiry) (s : σ) :
    reviewAll sink inquiries s =
      ((inquiries.map Inquiry.view).map fun v => Outcome.of v.decision,
        sink.recordAll ((inquiries.map Inquiry.view).flatMap View.actions) s) := by
  induction inquiries generalizing s with
  | nil => rfl
  | cons i later ih =>
    have one : review i.lookup sink i.request s =
        (Outcome.of i.view.decision, sink.recordAll i.view.actions s) := by
      rw [review_eq, ← verdict_eq_decision, ← actions_eq]
      rfl
    simp only [reviewAll, one, ih, List.map_cons, List.flatMap_cons, sink.recordAll_append]

/-- Two runs of reviews that look alike place by place, whatever their tokens, give the same actions
to be recorded, leave any destination in the same state, also one that fails, and have the same
outcomes. -/
theorem reviews_hide_tokens (left right : List Inquiry)
    (alike : left.map Inquiry.view = right.map Inquiry.view) :
    left.flatMap Inquiry.actions = right.flatMap Inquiry.actions ∧
    (reviewAll Sink.keep left []).2 = left.flatMap Inquiry.actions ∧
    ∀ (σ : Type) (sink : Sink σ) (s : σ), reviewAll sink left s = reviewAll sink right s := by
  have trail (inquiries : List Inquiry) : inquiries.flatMap Inquiry.actions =
      (inquiries.map Inquiry.view).flatMap View.actions := by
    rw [List.flatMap_map, show Inquiry.actions = fun i => i.view.actions from funext actions_eq]
  refine ⟨?_, ?_, ?_⟩
  · rw [trail left, trail right, alike]
  · rw [reviewAll_eq, keep_recordAll, trail]
    rfl
  · intro σ sink s
    rw [reviewAll_eq, reviewAll_eq, alike]

/-- Two tokens of one fingerprint, which a store gives to one user. A store that fails and one that
does not know the token look alike. -/
theorem equal_fingerprints_hidden :
    let first := "673c2b6814bdac1d"
    let second := "c947b4679b7ad3a8"
    let known : Lookup := fun token => .ok (
      if token = first ∨ token = second then some ⟨"Alice", "alice@example.org", "lab"⟩ else none)
    let broken : Lookup := fun _ => .error .lockPoisoned
    let unknown : Lookup := fun _ => .ok none
    let left : List Inquiry := [⟨known, .forToken first⟩, ⟨broken, .forToken first⟩]
    let right : List Inquiry := [⟨known, .forToken second⟩, ⟨unknown, .forToken second⟩]
    first ≠ second ∧ left.map Inquiry.view = right.map Inquiry.view ∧
      reviewAll Sink.keep left [] = reviewAll Sink.keep right [] := by
  intro first second known broken unknown left right
  have alike : left.map Inquiry.view = right.map Inquiry.view := by decide +kernel
  exact ⟨by decide, alike, (reviews_hide_tokens left right alike).2.2 _ _ _⟩

end CredentialGate.Review
